import FreebsdLaboratory.Lifecycle.Alone

/-!
# What a runtime consists of, and how `destroy` looks for it

`Resource` is what a record or a name can denote on the host, each with the command that probes for
it.  The probes tell the truth whenever they can be carried out (`honest`); one that cannot be
executed looks to the daemon like a resource that is not there.  `Overlooked` says that this has
happened to the last look for a resource, and `remaining_looked` that the final probes of `destroy`
miss nothing else.
-/

namespace FreebsdLaboratory

open Library Program

variable {m : RuntimeManager} {reentrant : Bool} {runtime name : String} {record : RuntimeRecord}
variable {h : Host} {s s' : Alone} {x y : Resource}

inductive Resource where
  | vm (name : String)
  | jail (name : String)
  | epair (interface : String)
  | md (unit : String)
  | dataset (path : String)
  deriving DecidableEq

namespace Resource

/-- The command that probes for it. -/
def probe : Resource → Command
  | vm name => .vmInfo name
  | jail name => .jlsName name
  | epair interface => .ifconfigShow interface
  | md unit => .mdconfigQuery (unitNumber unit)
  | dataset path => .zfsListDataset path

/-- It is there. -/
def Exists (h : Host) : Resource → Prop
  | vm name => name ∈ h.vms
  | jail name => name ∈ h.jails
  | epair interface => (epairNumber interface).any (· ∈ h.epairs) = true
  | md unit => (mdNumber (unitNumber unit)).any (· ∈ h.mds) = true
  | dataset path => path ∈ h.datasets

def isVm : Resource → Bool
  | vm _ => true
  | _ => false

/-- The probe exits with status 0 exactly if the resource is there, and leaves the host alone. -/
lemma perform_probe (m : RuntimeManager) (h : Host) (runtime : String) (unit : ℕ) (x : Resource) :
    ((h.perform m runtime unit x.probe).1 = 0 ↔ x.Exists h)
      ∧ (h.perform m runtime unit x.probe).2.2 = h := by
  have hcode : ∀ b : Bool, Host.exitCode b = 0 ↔ b = true := by decide
  cases x <;> simp [probe, Host.perform, hcode, Exists]

lemma isExistenceProbe_probe (x : Resource) : x.probe.isExistenceProbe = true := by
  cases x <;> rfl

end Resource

namespace RuntimeRecord

/-- The epair that a record names. -/
def epairs (record : RuntimeRecord) : List Resource :=
  match record.epairHost with
  | .str epair => if isEpairHost epair then [.epair epair] else []
  | _ => []

/-- The memory disk that a record names. -/
def mds (record : RuntimeRecord) : List Resource :=
  match record.mdUnit with
  | .str md => if isMdUnit md then [.md md] else []
  | _ => []

/-- The dataset that a record names. -/
def datasets (record : RuntimeRecord) : List Resource :=
  match record.dataset with
  | .str dataset => [.dataset dataset]
  | _ => []

/-- The resources that a record or the runtime's name denotes. -/
def resources (m : RuntimeManager) (name : String) (record : RuntimeRecord) : List Resource :=
  .dataset (m.jailDataset name)
    :: (record.datasets ++ (record.mds ++ (record.epairs ++ [.jail name, .vm name])))

end RuntimeRecord

/-! ## Looking -/

/-- A probe for a resource is truthful, runs into its time limit, prints what is no text or cannot
be executed; other commands end in any way. -/
def honest : Op → Answer → Bool
  | .run command, a =>
      !command.isExistenceProbe || (match a.exit with
        | .truthful | .timeoutExpired _ | .undecodable _ | .cannotExecute => true
        | .status _ _ _ => false)
  | _, _ => true

/-- The step looks for the resource; for a VM, also to find out that there is no `vm` to ask. -/
def Resource.soughtBy (x : Resource) (st : Taken) : Bool :=
  st.op = .run x.probe || x.isVm && st.op = .vmAvailable

/-- The look could not be carried out. -/
def Step.failed : Taken → Bool
  | ⟨_, .run _, _, .osError⟩ => true
  | ⟨_, .vmAvailable, _, available⟩ => !available
  | _ => false

/-- The last look for the resource could not be carried out, and the resource was there. -/
def Overlooked (past : List Taken) (x : Resource) : Prop :=
  ∃ st ∈ past.find? x.soughtBy, Step.failed st = true ∧ x.Exists st.before.host

lemma overlooked_cons (st : Taken) (past : List Taken) (x : Resource) : Overlooked (st :: past) x ↔
    if x.soughtBy st then Step.failed st = true
      ∧ x.Exists st.before.host else Overlooked past x := by
  unfold Overlooked
  cases hsought : x.soughtBy st <;> simp [hsought]

/-- Only the probes, and the question for `vm`, look for a resource. -/
lemma soughtBy_spec {st : Taken} (hsought : x.soughtBy st = true) :
    st.op = .vmAvailable ∨ ∃ command, st.op = .run command ∧ command.isExistenceProbe = true := by
  simp only [Resource.soughtBy, Bool.or_eq_true, Bool.and_eq_true, decide_eq_true_eq] at hsought
  rcases hsought with hprobe | ⟨-, havailable⟩
  · exact .inr ⟨_, hprobe, x.isExistenceProbe_probe⟩
  · exact .inl havailable

/-- The host is this one, and of these resources those are there that have been overlooked. -/
structure Looked (h : Host) (looked : List Resource) (s : Alone) : Prop where
  host : s.world.host = h
  found : ∀ x ∈ looked, (x.Exists h ↔ Overlooked s.past x)

/-- What an honest probe tells, if it does not run into its time limit. -/
lemma honest_probe {w w' : World} {a : Answer} {r : RunOutcome}
    (hhonest : honest (.run x.probe) a = true)
    (hexec : exec m reentrant 0 runtime w (.run x.probe) a = some (r, w')) :
    w'.host = w.host ∧ ∀ code out, r = .completed code out → (code = 0 ↔ x.Exists w.host) := by
  obtain ⟨hcode, hsame⟩ := x.perform_probe m w.host runtime a.unit
  obtain ⟨rfl, rfl⟩ := run_eq hexec
  rcases w.host.respond_cases m runtime a.unit a.exit x.probe with ⟨-, heq⟩ | heq
  · rw [heq]
    exact ⟨rfl, by simp⟩
  rw [heq]
  cases hexit : a.exit with
  | truthful =>
      refine ⟨hsame, fun code out hr => ?_⟩
      obtain ⟨rfl, -⟩ := RunOutcome.completed.inj hr
      exact hcode
  | status code out effect => simp [honest, hexit, x.isExistenceProbe_probe] at hhonest
  | timeoutExpired effect => exact ⟨by simp [Host.answer, hsame], by simp [Host.answer]⟩
  | undecodable effect => exact ⟨by simp [Host.answer, hsame], by simp [Host.answer]⟩
  | cannotExecute => exact ⟨by simp [Host.answer], by simp [Host.answer]⟩

/-- **A look for a resource** that finds nothing: the resource is not there, or overlooked. -/
lemma succeeds_looks {looked : List Resource} (hs : Looked h looked s) :
    (succeeds x.probe).Obeys (alone m reentrant runtime honest)
      (fun found s' => s'.world.host = h ∧ (found = false → Looked h (x :: looked) s'))
      (fun _ _ => True) s := by
  have hstep : ∀ a r w', honest (.run x.probe) a = true →
      exec m reentrant 0 runtime s.world (.run x.probe) a = some (r, w') → w'.host = h ∧
      ((r = .osError ∨ ∃ code out, r = .completed code out ∧ code ≠ 0) →
        Looked h (x :: looked) ⟨w', ⟨s.world, .run x.probe, a, r⟩ :: s.past⟩) := by
    intro a r w' hhonest hexec
    obtain ⟨hhost, htells⟩ := honest_probe hhonest hexec
    obtain ⟨hexists, -⟩ := x.perform_probe m s.world.host runtime 0
    refine ⟨hhost.trans hs.host, fun hr => ⟨hhost.trans hs.host, fun y hy => ?_⟩⟩
    rw [overlooked_cons]
    by_cases hprobe : y.probe = x.probe
    · obtain ⟨hexists', -⟩ := y.perform_probe m s.world.host runtime 0
      have hsame : y.Exists s.world.host ↔ x.Exists s.world.host := by
        rw [← hexists', ← hexists, hprobe]
      rw [if_pos (by simp [Resource.soughtBy, hprobe]), ← hs.host]
      rcases hr with rfl | ⟨code, out, rfl, hcode⟩
      · simp [Step.failed]
      · simp [Step.failed, hsame, ← htells code out rfl, hcode]
    · rw [if_neg (by simp [Resource.soughtBy, Ne.symm hprobe])]
      rcases List.mem_cons.mp hy with rfl | hy
      · exact absurd rfl hprobe
      · exact hs.found y hy
  refine Prog.obeys_bind.mpr (alone_run (fun _ _ => trivial) ?_ ?_)
  · intro a code out w' hhonest hexec
    obtain ⟨hhost, hlooked⟩ := hstep a _ w' hhonest hexec
    exact ⟨hhost, fun hfound => hlooked (.inr ⟨code, out, rfl, by simpa using hfound⟩)⟩
  · intro a w' hhonest hexec
    obtain ⟨hhost, hlooked⟩ := hstep a _ w' hhonest hexec
    exact ⟨hhost, fun _ => hlooked (.inl rfl)⟩

/-! ## The final probes -/

/-- The VM is looked for first. -/
lemma vmExists_looks (hs : Looked h [] s) :
    (vmExists name).Obeys (alone m reentrant runtime honest)
      (fun found s' => found = false → Looked h [.vm name] s') (fun _ _ => True) s := by
  refine Prog.obeys_bind.mpr (alone_op fun a r w' _ hexec => ?_)
  obtain ⟨rfl, rfl⟩ := Prod.mk.inj (Option.some.inj hexec)
  split_ifs with havailable
  · have hs' : Looked h []
      ⟨s.world, ⟨s.world, .vmAvailable, a, s.world.host.vmInstalled⟩ :: s.past⟩ :=
      ⟨hs.host, by simp⟩
    exact (succeeds_looks (x := .vm name) hs').mono (fun _ _ h => h.2) fun _ _ h => h
  · refine fun _ => ⟨hs.host, fun x hx => ?_⟩
    obtain rfl := List.mem_singleton.mp hx
    have hnone : h.vmInstalled = false := by simpa [hs.host] using havailable
    rw [overlooked_cons, if_pos (by simp [Resource.soughtBy, Resource.isVm])]
    simp [Step.failed, hs.host, hnone]

/-- One of the final probes, where `A` says that those before it have found nothing. -/
lemma labelIf_looks {A : Prop} {probe : Program Bool} {label : String}
    {looked looked' : List Resource}
    (hs : A → Looked h looked s)
    (hprobe : Looked h looked s → probe.Obeys (alone m reentrant runtime honest)
      (fun found s' => found = false → Looked h looked' s') (fun _ _ => True) s) :
    (labelIf probe label).Obeys (alone m reentrant runtime honest)
      (fun labels s' => A ∧ labels = [] → Looked h looked' s') (fun _ _ => True) s := by
  by_cases hA : A
  · refine Prog.obeys_bind.mpr ((hprobe (hs hA)).mono (fun found s' hfound => ?_) fun _ _ h => h)
    cases found <;> simp_all
  · exact (Solo.obeys_trivial _).mono (fun _ _ _ h => absurd h.1 hA) fun _ _ h => h

section Remaining

variable {A : Prop} {looked : List Resource}

/-- A probe that is one command. -/
lemma labelIf_succeeds_looks {label : String} (x : Resource) (hs : A → Looked h looked s) :
    (labelIf (succeeds x.probe) label).Obeys (alone m reentrant runtime honest)
      (fun labels s' => A ∧ labels = [] → Looked h (x :: looked) s') (fun _ _ => True) s :=
  labelIf_looks hs fun hs => (succeeds_looks hs).mono (fun _ _ h => h.2) fun _ _ h => h

lemma remainingEpair_looks (hs : A → Looked h looked s) :
    (remainingEpair record).Obeys (alone m reentrant runtime honest)
      (fun labels s' => A ∧ labels = [] → Looked h (record.epairs ++ looked) s')
      (fun _ _ => True) s := by
  unfold remainingEpair RuntimeRecord.epairs
  cases record.epairHost with
  | str epair =>
      dsimp only
      split_ifs
      · exact labelIf_succeeds_looks (.epair _) hs
      · exact fun hA => hs hA.1
  | _ => exact fun hA => hs hA.1

lemma remainingMd_looks (hs : A → Looked h looked s) :
    (remainingMd record).Obeys (alone m reentrant runtime honest)
      (fun labels s' => A ∧ labels = [] → Looked h (record.mds ++ looked) s')
      (fun _ _ => True) s := by
  unfold remainingMd RuntimeRecord.mds
  cases record.mdUnit with
  | str md =>
      dsimp only
      split_ifs with hunit
      · rw [mdExists, if_pos hunit]
        exact labelIf_succeeds_looks (.md _) hs
      · exact fun hA => hs hA.1
  | _ => exact fun hA => hs hA.1

lemma remainingDataset_looks (hs : A → Looked h looked s) :
    (remainingDataset record).Obeys (alone m reentrant runtime honest)
      (fun labels s' => A ∧ labels = [] → Looked h (record.datasets ++ looked) s')
      (fun _ _ => True) s := by
  unfold remainingDataset RuntimeRecord.datasets
  cases record.dataset with
  | str dataset => exact labelIf_succeeds_looks (.dataset _) hs
  | surrogate => trivial
  | _ => exact fun hA => hs hA.1

end Remaining

/-- **When the final probes find nothing**, what is still there has been overlooked, and what has
been overlooked is still there. -/
theorem remaining_looked (hs : s.world.host = h) :
    (remainingResources m name record).Obeys (alone m reentrant runtime honest)
      (fun remaining s' => remaining = [] → Looked h (record.resources m name) s')
      (fun _ _ => True) s := by
  have hstart : True → Looked h [] s := fun _ => ⟨hs, by simp⟩
  refine Prog.obeys_bind.mpr ((labelIf_looks hstart vmExists_looks).mono (fun vm s₁ h₁ => ?_)
    fun _ _ h => h)
  refine Prog.obeys_bind.mpr ((labelIf_succeeds_looks (.jail name) h₁).mono (fun jail s₂ h₂ => ?_)
    fun _ _ h => h)
  refine Prog.obeys_bind.mpr ((remainingEpair_looks h₂).mono (fun epair s₃ h₃ => ?_) fun _ _ h => h)
  refine Prog.obeys_bind.mpr ((remainingMd_looks h₃).mono (fun md s₄ h₄ => ?_) fun _ _ h => h)
  refine Prog.obeys_bind.mpr ((remainingDataset_looks h₄).mono (fun recorded s₅ h₅ => ?_)
    fun _ _ h => h)
  refine Prog.obeys_bind.mpr ((labelIf_succeeds_looks (.dataset (m.jailDataset name)) h₅).mono
    (fun dataset s₆ h₆ => ?_) fun _ _ h => h)
  intro hremaining
  simp only [List.append_eq_nil_iff] at hremaining
  obtain ⟨⟨⟨⟨⟨hvm, hjail⟩, hepair⟩, hmd⟩, hrecorded⟩, hdataset⟩ := hremaining
  exact h₆ ⟨⟨⟨⟨⟨⟨trivial, hvm⟩, hjail⟩, hepair⟩, hmd⟩, hrecorded⟩, hdataset⟩

end FreebsdLaboratory
