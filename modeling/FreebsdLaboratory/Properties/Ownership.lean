import FreebsdLaboratory.Model.RuntimeClient
import FreebsdLaboratory.Protocol.Units

/-!
# A destroy takes only what is its own

A destroy removes the epair and the memory disk its record names, by their numbers, and datasets by
their paths.  Paths carry the runtime's name, so a dataset is always the right one; a number is the
right one as long as the unit under it was handed out for the same runtime, which is `UnitsOwned`.

A destroy that fails keeps the whole record, with numbers of units it has removed.  Once the kernel
hands out such a number again, the retry takes the unit of another runtime.
-/

namespace FreebsdLaboratory

open Library

variable {m : RuntimeManager} {reentrant : Bool} {i n : ℕ} {name name' : String} {w w₀ w' : World}
variable {o : Op} {a : Answer} {c : Connection} {s : Known} {vs : List (Connection × Known)}

/-- A dataset that belongs to the runtime, or its temporary clone. -/
def RuntimeManager.Holds (m : RuntimeManager) (name d : String) : Prop :=
  m.Owns name d ∨ Text.isBelow (m.srcDataset name) d = true

/-- An epair, a memory disk or a dataset of the runtime is there before and not after. -/
def Takes (m : RuntimeManager) (name : String) (w w' : World) : Prop :=
  (∃ (k : UnitKind) (n : ℕ), (k.units w.host).lookup n = some name ∧ n ∉ k.units w'.host)
    ∨ ∃ d, m.Holds name d ∧ d ∈ w.host.datasets ∧ d ∉ w'.host.datasets

/-- A step of a destroy takes nothing from another registered runtime. -/
def DestroysTakeTheirOwn (p : Pool m reentrant) : Prop :=
  ∀ i a p' t name name' r, p.next (.step i a) = some p' → p.threads[i]? = some t →
    Known.Destroying t.context t.known name → World.load p.world name' = .ok (some r) →
    Takes m name' p.world p'.world → name' = name

/-- Who destroys and knows the entry of a runtime destroys that runtime. -/
theorem destroys_of_working {x : Option RuntimeRecord} (hcoherent : Coherent w vs)
    (hi : vs[i]? = some (c, s)) (hdestroying : s.Destroying c name) (h : s.Working c name' x) :
    name' = name :=
  hcoherent.single _ (List.mem_of_getElem? hi) _ _ h.destroying.1 hdestroying.1

/-- A unit a destroy removes is one its record names. -/
theorem recorded_of_removal (hcoherent : Coherent w vs) (hi : vs[i]? = some (c, s))
    (hdestroying : s.Destroying c name) (hp : Permits m c s o) {k : UnitKind} {r : o.Resp}
    (he : exec m reentrant i c.runtime w o a = some (r, w')) (hold : n ∈ k.units w.host)
    (hnew : n ∉ k.units w'.host) :
    ∃ x, w.load name = .ok (some x) ∧ k.recorded x = some n := by
  cases k with
  | epair =>
      obtain rfl := step_loses_epair he hold hnew
      rcases hp with ⟨name', x, hwork, hx, -⟩ | ⟨-, -, hshared, -⟩
      · obtain rfl := destroys_of_working hcoherent hi hdestroying hwork
        refine ⟨x, hcoherent.load_of_knows hi hwork.knows, ?_⟩
        simp [UnitKind.recorded, hx, RecordValue.asStr, UnitKind.number, epairNumber_epairHost]
      · have hhold := hdestroying.1
        simp [hshared] at hhold
  | md =>
      obtain ⟨number, rfl, hn⟩ := step_loses_md he hold hnew
      obtain ⟨name', x, md, hwork, hx, -, rfl⟩ := hp
      obtain rfl := destroys_of_working hcoherent hi hdestroying hwork
      refine ⟨x, hcoherent.load_of_knows hi hwork.knows, ?_⟩
      simp [UnitKind.recorded, hx, RecordValue.asStr, UnitKind.number, hn]

/-- A dataset a destroy removes belongs to its runtime. -/
theorem owns_of_removal {d : String} (hcoherent : Coherent w vs)
    (hwritten : RecordsWritten m w₀ w vs) (hi : vs[i]? = some (c, s))
    (hdestroying : s.Destroying c name) (hp : Permits m c s o) {r : o.Resp}
    (he : exec m reentrant i c.runtime w o a = some (r, w')) (hold : d ∈ w.host.datasets)
    (hnew : d ∉ w'.host.datasets) : m.Owns name d ∧ isRuntimeName name = true := by
  have hnested : ∀ name', ¬ s.Creating c name' := by
    intro name' hcreating
    obtain rfl := hcoherent.single _ (List.mem_of_getElem? hi) name' name
      (by simp [hcreating.holds]) hdestroying.1
    have := hdestroying.2 hcreating.creates
    simp [hcreating.holds] at this
  obtain ⟨command, root, rfl, hroot, hd⟩ := step_loses_dataset he hold hnew
  cases command <;> simp only [Command.destroysBelow, Option.some.injEq, reduceCtorEq] at hroot
  case zfsDestroy p =>
      obtain ⟨name', r₀, hcreating, -⟩ := hp
      exact absurd hcreating (hnested name')
  case zfsDestroyRecursive p =>
      subst hroot
      obtain ⟨name', ⟨y, hwork, hp⟩ | ⟨hcreating, -⟩⟩ := hp
      · obtain rfl := destroys_of_working hcoherent hi hdestroying hwork
        refine ⟨?_, hwork.named⟩
        rcases hp with rfl | ⟨x, rfl, hdataset⟩
        · exact .inl hd
        · obtain ⟨-, c', hwrote, -⟩ := hwritten name' x (hcoherent.load_of_knows hi hwork.knows)
          exact hwrote.owns_of_dataset hdataset hd
      · exact absurd hcreating (hnested name')
  case vmDestroy name' =>
      subst hroot
      obtain ⟨y, hwork⟩ := hp
      obtain rfl := destroys_of_working hcoherent hi hdestroying hwork
      exact ⟨.inr hd, hwork.named⟩

/-- The daemon has just started, and the units under the numbers the records name are those of the
records' runtimes. -/
structure World.Owned (m : RuntimeManager) (w : World) : Prop extends w.Started m where
  owned : ∀ (k : UnitKind) name r n tag, w.load name = .ok (some r) → k.recorded r = some n →
    (k.units w.host).lookup n = some tag → tag = name

/-- **A destroy takes nothing from another registered runtime**, in every run in which the kernel
hands out no number that another runtime still names. -/
theorem destroys_take_their_own (m : RuntimeManager) (reentrant : Bool) {w₀ : World}
    (hw₀ : w₀.Owned m) {p : Pool m reentrant}
    (hp : Machine.Reaches (whenStep (UnitsFresh m)) ⟨w₀, []⟩ p) : DestroysTakeTheirOwn p := by
  have hsound := sound_of_reaches
    (((coherent_preserved m reentrant _).and (recordsWritten_preserved m reentrant w₀ _)).and
      ((unitsOwned_preserved m reentrant).weaken fun _ _ h => h.1))
    ⟨⟨hw₀.coherent, hw₀.recordsWritten⟩, hw₀.owned, by simp⟩ hp
  obtain ⟨⟨hcoherent, hwritten⟩, howned⟩ := hsound.holds
  intro i a p' t name name' r hnext ht hdestroying hr htakes
  obtain ⟨t', o, k, x, w, ht', hrest, he, rfl⟩ := Machine.Pool.next_step hnext
  obtain rfl : t' = t := by simpa [ht] using ht'.symm
  have hperm : Permits m t'.context t'.known o :=
    hsound.permits ht (by simp [Machine.Thread.pending, hrest])
  have hi := views_getElem? ht
  rcases htakes with ⟨kind, n, hlookup, hnew⟩ | ⟨d, hholds, hold, hnew⟩
  · have hold : n ∈ kind.units (World.host p.world) :=
      AList.lookup_isSome.mp (by rw [hlookup]; rfl)
    obtain ⟨y, hy, hrecorded⟩ := recorded_of_removal hcoherent hi hdestroying hperm he hold hnew
    exact howned.recorded kind name y n name' hy hrecorded hlookup
  · obtain ⟨howns, hname⟩ := owns_of_removal hcoherent hwritten hi hdestroying hperm he hold hnew
    have hname' := (hwritten name' r hr).1
    rcases hholds with howns' | hsrc
    · exact howns'.unique hname' hname howns
    · exact absurd howns (not_owns_of_src hname hname' hsrc)

/-- A number that is handed out is new to the registry and to the threads. -/
def handsOutFresh (m : RuntimeManager) (w : World) (vs : List (Connection × Known)) (_ : ℕ)
    (c : Connection)
    (_ : Known) (o : Op) (a : Answer) : Bool :=
  match o with
  | .run command =>
      [UnitKind.epair, .md].all fun k =>
        (k.units (w.host.respond m c.runtime a.unit a.exit command).2).keys.all fun n =>
          decide (n ∈ k.units w.host)
            || (w.registry.keys.all fun name =>
                  match w.load name with
                  | .ok (some r) => decide (k.recorded r ≠ some n)
                  | _ => true)
              && vs.all fun v => decide (k.obtained v.2 ≠ some n)
  | _ => true

lemma unitsFresh_of_handsOutFresh (h : handsOutFresh m w vs i c s o a = true) :
    UnitsFresh m w vs i c s o a := by
  rintro k n ⟨command, rfl, hold, hnew⟩
  have hkind := List.all_eq_true.mp h k (by cases k <;> simp)
  have hfresh := List.all_eq_true.mp hkind n hnew
  simp only [Bool.or_eq_true, decide_eq_true_eq, Bool.and_eq_true, List.all_eq_true] at hfresh
  obtain ⟨hrecorded, hobtained⟩ := hfresh.resolve_left hold
  refine ⟨fun name r hr hnamed => ?_, hobtained⟩
  have hname := hrecorded name (mem_keys_of_load hr)
  rw [hr] at hname
  exact absurd hnamed (of_decide_eq_true hname)

/-- The files of a jail. -/
def jailFiles (name : String) : Answer :=
  { path := RuntimeManager.standard.config.jailMountRoot ++ "/" ++ name }

/-- Two jails are created, and the first is being destroyed: its epair is next. -/
def destroyingFirst : List (daemon .standard false).Label :=
  .arrive (fromJupyter (RuntimeClient.createJail "freebsd-lab-a" 100 sampleKey))
    :: turns 0 41 (jailFiles "freebsd-lab-a")
    ++ .arrive (fromJupyter (RuntimeClient.createJail "freebsd-lab-b" 100 sampleKey))
    :: turns 1 33 (jailFiles "freebsd-lab-b")
    ++ .arrive (fromJupyter (RuntimeClient.destroy "freebsd-lab-a")) :: turns 2 7

/-- The epair of the first jail is taken, and nothing of the second. -/
theorem destroys_take_their_own_of_second : ∃ p p' : Pool .standard false,
    Machine.Reaches (whenStep (UnitsFresh .standard)) ⟨sampleWorld, []⟩ p
      ∧ (∃ r, World.load p.world "freebsd-lab-b" = .ok (some r)) ∧ p.next (.step 2 {}) = some p'
      ∧ Takes .standard "freebsd-lab-a" p.world p'.world
      ∧ ¬ Takes .standard "freebsd-lab-b" p.world p'.world := by
  have hrun : ((⟨sampleWorld, []⟩ : Pool .standard false).checkedRun
        (passesStep (handsOutFresh .standard)) destroyingFirst).map
      (fun p => ((World.registry p.world |>.get? "freebsd-lab-b").isSome,
        (World.host p.world).epairs.lookup 0,
        p.threads[2]?.map fun t => decide (Known.Destroying t.context t.known "freebsd-lab-a"),
        (p.next (.step 2 {})).map fun p' => (World.host p'.world).epairs.lookup 0))
      = some (true, some "freebsd-lab-a", some true, some none) := by
    decide +kernel
  obtain ⟨p, hp, hstate⟩ := Option.map_eq_some_iff.mp hrun
  simp only [Prod.mk.injEq, Option.map_eq_some_iff, decide_eq_true_eq] at hstate
  obtain ⟨hsome, hlookup, ⟨t, ht, hdestroying⟩, p', hnext, hgone⟩ := hstate
  obtain ⟨r, hr⟩ := Option.isSome_iff_exists.mp hsome
  have hreaches : Machine.Reaches (whenStep (UnitsFresh .standard)) ⟨sampleWorld, []⟩ p :=
    Machine.reaches_of_checkedRun
      (fun _ _ => whenStep_of_passesStep fun _ _ _ _ _ _ _ => unitsFresh_of_handsOutFresh) _ .start
      hp
  refine ⟨p, p', hreaches, ⟨r, load_of_get? hr⟩, hnext,
    .inl ⟨.epair, 0, hlookup, AList.lookup_eq_none.mp hgone⟩, fun htakes => ?_⟩
  have heq := destroys_take_their_own .standard false
    ⟨.of_empty rfl rfl, by simp [World.load, sampleWorld]⟩ hreaches 2 {} p' t "freebsd-lab-a"
      "freebsd-lab-b" r
    hnext ht hdestroying (load_of_get? hr) htakes
  exact absurd heq (by decide)

/-! ## A number handed out twice -/

/-- A jail is created; its destroy removes the epair, but not the dataset, which is busy; a second
jail is given the number of the epair; the destroy of the first is tried again and is about to
remove the epair. -/
def reusingSchedule : List (daemon .standard false).Label :=
  let busy : Answer := { exit := .status 1 "dataset is busy" false }
  .arrive (fromJupyter (RuntimeClient.createJail "freebsd-lab-a" 100 sampleKey))
    :: turns 0 41 (jailFiles "freebsd-lab-a")
    ++ .arrive (fromJupyter (RuntimeClient.destroy "freebsd-lab-a"))
    :: turns 1 5 ++ turns 1 10 busy ++ turns 1 3 ++ turns 1 10 busy ++ turns 1 6
    ++ .arrive (fromJupyter (RuntimeClient.createJail "freebsd-lab-b" 100 sampleKey))
    :: turns 2 33 (jailFiles "freebsd-lab-b")
    ++ .arrive (fromJupyter (RuntimeClient.destroy "freebsd-lab-a")) :: turns 3 11

/-- The retried destroy of the first jail removes the epair of the second. -/
theorem retry_takes_reused_epair : sampleWorld.Owned .standard ∧ ∃ p : Pool .standard false,
    Machine.Reaches (fun _ _ => True) ⟨sampleWorld, []⟩ p ∧ ¬ DestroysTakeTheirOwn p := by
  refine ⟨⟨.of_empty rfl rfl, by simp [World.load, sampleWorld]⟩, ?_⟩
  have hrun : ((⟨sampleWorld, []⟩ : Pool .standard false).run reusingSchedule).map
      (fun p => ((World.registry p.world |>.get? "freebsd-lab-b").isSome,
        (World.host p.world).epairs.lookup 0,
        p.threads[3]?.map fun t => decide (Known.Destroying t.context t.known "freebsd-lab-a"),
        (p.next (.step 3 {})).map fun p' => (World.host p'.world).epairs.lookup 0))
      = some (true, some "freebsd-lab-b", some true, some none) := by
    decide +kernel
  obtain ⟨p, hp, hstate⟩ := Option.map_eq_some_iff.mp hrun
  simp only [Prod.mk.injEq, Option.map_eq_some_iff, decide_eq_true_eq] at hstate
  obtain ⟨hsome, hlookup, ⟨t, ht, hdestroying⟩, p', hnext, hgone⟩ := hstate
  obtain ⟨r, hr⟩ := Option.isSome_iff_exists.mp hsome
  refine ⟨p, Machine.reaches_of_free_run _ hp, fun h => ?_⟩
  have heq := h 3 {} p' t "freebsd-lab-a" "freebsd-lab-b" r hnext ht hdestroying
    (load_of_get? hr) (.inl ⟨.epair, 0, hlookup, AList.lookup_eq_none.mp hgone⟩)
  exact absurd heq (by decide)

end FreebsdLaboratory
