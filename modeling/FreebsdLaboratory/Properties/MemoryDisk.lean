import FreebsdLaboratory.Lifecycle.Writes
import FreebsdLaboratory.Model.RuntimeClient

/-!
# The disk of a VM on a memory disk

With the `memdisk` backend a VM is created from a template that names `/dev/md0` as its disk; a
`vm set` whose failure nobody looks at puts the request's own unit in its place.  The unit is filled
from a clone of the profile's snapshot or from its image, or from neither, if neither is found.
`own_disk_iff` says exactly when a VM that has been created runs on its own, filled disk.
-/

namespace FreebsdLaboratory

open Library Program

variable {m : RuntimeManager} {reentrant : Bool} {runtime name md : String}
    {w w' : World} {s : Alone}
variable {o : Op} {a : Answer} {r : o.Resp} {ok : Op → Answer → Bool} {α β : Type}
variable {guestProfile : BhyveGuestProfile} {past : List Taken} {st : Taken}

/-! ## Reading a history -/

/-- The command has exited with status 0. -/
def Done (command : Command) (st : Taken) : Prop :=
  ∃ before a out, st = ⟨before, .run command, a, .completed 0 out⟩

/-- A command that can do its work does it, whatever the daemon is told. -/
def Exit.effective : Exit → Bool
  | .truthful | .status 0 _ _ => true
  | .status (_ + 1) _ effect | .timeoutExpired effect | .undecodable effect => effect
  | .cannotExecute => false

/-- The step is a command that has done its work. -/
def Took (m : RuntimeManager) (runtime : String) (st : Taken) : Bool :=
  match st.op with
  | .run command =>
      !command.embedsNull m && st.choice.exit.effective
        && (st.before.host.perform m runtime st.choice.unit command).1 = 0
  | _ => false

/-- The unit that was allocated last. -/
def allocated : List Taken → Option String
  | [] => none
  | ⟨_, .run .mdconfigAttach, _, .completed 0 stdout⟩ :: _ => (newMdUnit stdout).toOption
  | _ :: past => allocated past

/-- `disk0_name` in the templates under `vm-bhyve/`. -/
def templateDisk0 (template : String) : Option String :=
  if template = "freebsd-lab-memdisk" ∨ template = "linux-lab-memdisk" then some "/dev/md0"
  else if template = "freebsd-lab" ∨ template = "linux-lab" then some "disk0"
  else none

/-- What an assignment of `vm set` makes of `disk0_name`. -/
def diskName (assignment : String) : Option String :=
  if Text.startsWith "disk0_name=" assignment then some (String.ofList (assignment.toList.drop 11))
  else none

/-- `disk0_name` of a VM: the template's, or what it has been set to since. -/
def disk0 (m : RuntimeManager) (runtime name : String) : List Taken → Option String
  | [] => none
  | st :: past =>
      match Took m runtime st, st.op with
      | true, .run (.vmCreate template _ _ _ name') =>
          if name' = name then templateDisk0 template else disk0 m runtime name past
      | true, .run (.vmDestroy name') => if name' = name then none else disk0 m runtime name past
      | true, .run (.vmSet name' assignment) =>
          if name' = name then (diskName assignment).or (disk0 m runtime name past)
          else disk0 m runtime name past
      | _, _ => disk0 m runtime name past

/-- The unit is filled here: from the image, or from a clone of the snapshot. -/
def Fills (m : RuntimeManager) (name : String) (guestProfile : BhyveGuestProfile) (md : String)
    (st : Taken) (past : List Taken) : Prop :=
  Done (.dd guestProfile.image md) st
    ∨ Done (.dd ("/dev/zvol/" ++ m.srcDataset name) md) st
      ∧ ∃ st' ∈ past, Done (.zfsClone guestProfile.zvolSnapshot (m.srcDataset name)) st'

/-- The unit has been filled. -/
def Filled (m : RuntimeManager) (name : String) (guestProfile : BhyveGuestProfile) (md : String) :
    List Taken → Prop
  | [] => False
  | st :: past => Fills m name guestProfile md st past ∨ Filled m name guestProfile md past

/-- The file has been found. -/
def FoundFile (path : String) (st : Taken) : Prop :=
  ∃ before a, st = ⟨before, .ask (.isFile path), a, true⟩

/-- The snapshot has been shown to be there, or the image found. -/
def SourceFound (guestProfile : BhyveGuestProfile) (past : List Taken) : Prop :=
  (∃ st ∈ past, Done (.zfsListSnapshot guestProfile.zvolSnapshot) st)
    ∨ ∃ st ∈ past, FoundFile guestProfile.image st

/-- The unit has been made the VM's disk. -/
def Assigned (m : RuntimeManager) (runtime name md : String) (past : List Taken) : Prop :=
  ∃ st ∈ past, st.op = .run (.vmSet name ("disk0_name=/dev/" ++ md)) ∧ Took m runtime st = true

/-- **The VM's disk is the unit allocated for it, and has been filled.** -/
def OwnDisk (m : RuntimeManager) (runtime name : String) (guestProfile : BhyveGuestProfile)
    (past : List Taken) : Prop :=
  ∃ md, allocated past = some md ∧ disk0 m runtime name past = some ("/dev/" ++ md)
    ∧ Filled m name guestProfile md past

/-! ## One more step -/

/-- The operation has nothing to do with the disks of VMs. -/
def Op.leavesDisks : Op → Bool
  | .ask (.isFile _) | .run .mdconfigAttach | .run (.dd _ _) | .run (.zfsListSnapshot _)
  | .run (.vmCreate _ _ _ _ _) | .run (.vmDestroy _) | .run (.vmSet _ _) => false
  | _ => true

/-- So has an operation in front of the `try` block; it may destroy a VM. -/
def Op.isEarly : Op → Bool
  | .run (.vmDestroy _) => true
  | o => o.leavesDisks

lemma allocated_cons (h : st.op ≠ .run .mdconfigAttach) : allocated (st :: past)
    = allocated past := by
  rw [allocated]
  rintro before a stdout rfl
  exact h rfl

lemma not_fills (h : ∀ source md, st.op ≠ .run (.dd source md)) :
    ¬ Fills m name guestProfile md st past := by
  rintro (⟨before, a, out, rfl⟩ | ⟨⟨before, a, out, rfl⟩, -⟩) <;> exact h _ _ rfl

lemma filled_cons (h : ∀ source md, st.op ≠ .run (.dd source md)) :
    Filled m name guestProfile md (st :: past) ↔ Filled m name guestProfile md past :=
  or_iff_right (not_fills h)

lemma sourceFound_cons (hlist : ∀ snapshot, st.op ≠ .run (.zfsListSnapshot snapshot))
    (hask : ∀ path, st.op ≠ .ask (.isFile path)) :
    SourceFound guestProfile (st :: past) ↔ SourceFound guestProfile past := by
  have hsnapshot : ¬ Done (.zfsListSnapshot guestProfile.zvolSnapshot) st := by
    rintro ⟨before, a, out, rfl⟩
    exact hlist _ rfl
  have himage : ¬ FoundFile guestProfile.image st := by
    rintro ⟨before, a, rfl⟩
    exact hask _ rfl
  simp [SourceFound, hsnapshot, himage]

lemma assigned_cons (h : ∀ md, st.op ≠ .run (.vmSet name ("disk0_name=/dev/" ++ md))) :
    Assigned m runtime name md (st :: past) ↔ Assigned m runtime name md past := by
  simp [Assigned, h]

lemma disk0_cons (h : ∀ template image key netconfig name',
      st.op ≠ .run (.vmCreate template image key netconfig name'))
    (hdestroy : ∀ name', st.op ≠ .run (.vmDestroy name'))
    (hset : ∀ name' assignment, st.op = .run (.vmSet name' assignment) →
      diskName assignment = none) :
    disk0 m runtime name (st :: past) = disk0 m runtime name past := by
  rw [disk0]
  split
  · exact absurd ‹_› (h _ _ _ _ _)
  · exact absurd ‹_› (hdestroy _)
  · rename_i hop
    rw [hset _ _ hop, Option.none_or, ite_self]
  · rfl

lemma diskName_unit (md : String) : diskName ("disk0_name=/dev/" ++ md) = some ("/dev/" ++ md) := by
  have hsplit : "disk0_name=/dev/" ++ md = "disk0_name=" ++ ("/dev/" ++ md) := by
    rw [← String.append_assoc]
    rfl
  have hstarts : Text.startsWith "disk0_name=" ("disk0_name=" ++ ("/dev/" ++ md)) = true := by
    simp [Text.startsWith]
  have hdrop : ("disk0_name=" ++ ("/dev/" ++ md)).toList.drop 11 = ("/dev/" ++ md).toList := by
    rw [String.toList_append]
    exact List.drop_left' rfl
  rw [hsplit, diskName, if_pos hstarts, hdrop, String.ofList_toList]

lemma diskName_dev : diskName "disk0_dev=custom" = none := by decide

/-! ## A request on its way -/

/-- The unit has been allocated, and the VM's disk not been set. -/
structure HasUnit (name md : String) (past : List Taken) : Prop where
  unit : allocated past = some md
  unset : ∀ st ∈ past, ∀ assignment, st.op ≠ .run (.vmSet name assignment)

/-- The unit is filled if something to fill it from has been found. -/
structure Loaded (m : RuntimeManager) (name : String) (guestProfile : BhyveGuestProfile)
    (md : String)
    (past : List Taken) : Prop extends HasUnit name md past where
  filled : Filled m name guestProfile md past ↔ SourceFound guestProfile past

/-- The VM's disk is the unit if it has been set, or is called as in the template. -/
structure Configured (m : RuntimeManager) (runtime name : String) (guestProfile : BhyveGuestProfile)
    (md : String) (past : List Taken) : Prop where
  unit : allocated past = some md
  filled : Filled m name guestProfile md past ↔ SourceFound guestProfile past
  disk : disk0 m runtime name past = some ("/dev/" ++ md)
    ↔ md = "md0" ∨ Assigned m runtime name md past

lemma HasUnit.cons (h : HasUnit name md past) (hattach : st.op ≠ .run .mdconfigAttach)
    (hset : ∀ assignment, st.op ≠ .run (.vmSet name assignment)) : HasUnit name md (st :: past) :=
  ⟨(allocated_cons hattach).trans h.unit, List.forall_mem_cons.mpr ⟨hset, h.unset⟩⟩

lemma Configured.cons (h : Configured m runtime name guestProfile md past)
    (ho : st.op.leavesDisks = true ∨ st.op = .run (.vmSet name "disk0_dev=custom")) :
    Configured m runtime name guestProfile md (st :: past) := by
  have hne : ∀ o : Op, o.leavesDisks = false → o ≠ .run (.vmSet name "disk0_dev=custom") →
    st.op ≠ o := by
    rintro o hleaves hne rfl
    rcases ho with ho | ho
    · rw [hleaves] at ho
      cases ho
    · exact hne ho
  have hassignment : ∀ md : String, "disk0_name=/dev/" ++ md ≠ "disk0_dev=custom" := by
    intro md heq
    have hname := diskName_unit md
    rw [heq, diskName_dev] at hname
    cases hname
  refine ⟨?_, ?_, ?_⟩
  · rw [allocated_cons (hne _ rfl (by simp)), h.unit]
  · rw [filled_cons fun _ _ => hne _ rfl (by simp), h.filled,
      sourceFound_cons (fun _ => hne _ rfl (by simp)) fun _ => hne _ rfl (by simp)]
  · rw [disk0_cons (fun _ _ _ _ _ => hne _ rfl (by simp)) (fun _ => hne _ rfl (by simp)) ?_, h.disk,
      assigned_cons fun md => hne _ rfl ?_]
    · intro heq
      exact hassignment md (by simpa using heq)
    · intro name' assignment hop
      rcases ho with ho | ho
      · rw [hop] at ho
        cases ho
      · rw [hop] at ho
        obtain ⟨-, rfl⟩ := Command.vmSet.inj (Op.run.inj ho)
        exact diskName_dev

/-- A changing command that has exited with status 0 has done its work. -/
lemma took_of_done {command : Command} {out : String} (hprobe : command.isProbe = false)
    (hexec : exec m reentrant 0 runtime w (.run command) a = some (.completed 0 out, w')) :
    Took m runtime ⟨w, .run command, a, .completed 0 out⟩ = true := by
  obtain ⟨hr, -⟩ := run_eq hexec
  have hnull : command.embedsNull m = false := by
    by_contra hnull
    rw [Host.respond, if_pos (by simpa using hnull)] at hr
    cases hr
  rw [Host.respond, if_neg (by simp [hnull])] at hr
  unfold Host.answer at hr
  simp only [Took, hnull, Bool.not_false, Bool.true_and, Bool.and_eq_true, decide_eq_true_eq]
  generalize w.host.perform m runtime a.unit command = result at hr ⊢
  obtain ⟨code, out', h'⟩ := result
  cases hexit : a.exit with
  | truthful =>
      simp only [hexit, RunOutcome.completed.injEq] at hr
      exact ⟨rfl, hr.1.symm⟩
  | status code' stdout effect =>
      cases code' with
      | zero =>
          simp only [hexit, hprobe, Bool.false_eq_true, if_false] at hr
          by_cases hcode : code = 0
          · exact ⟨rfl, hcode⟩
          · rw [if_neg hcode] at hr
            exact absurd (RunOutcome.completed.inj hr).1.symm hcode
      | succ n => simp [hexit] at hr
  | timeoutExpired effect => simp [hexit] at hr
  | undecodable effect => simp [hexit] at hr
  | cannotExecute => simp [hexit] at hr

/-! ## The request -/

section Request

/-- Nothing has been found to fill the unit from, and it has not been filled. -/
def Empty (m : RuntimeManager) (name : String) (guestProfile : BhyveGuestProfile) (md : String)
    (past : List Taken) : Prop :=
  HasUnit name md past ∧ ¬ Filled m name guestProfile md past ∧ ¬ SourceFound guestProfile past

lemma SourceFound.cons (h : SourceFound guestProfile past) (st : Taken) :
    SourceFound guestProfile (st :: past) := by
  rcases h with ⟨st', hst', hdone⟩ | ⟨st', hst', hfound⟩
  · exact .inl ⟨st', List.mem_cons_of_mem _ hst', hdone⟩
  · exact .inr ⟨st', List.mem_cons_of_mem _ hst', hfound⟩

/-- What the look for the snapshot has found. -/
lemma snapshotExists_obeys (hs : Empty m name guestProfile md s.past) :
    (snapshotExists guestProfile.zvolSnapshot).Obeys (alone m reentrant runtime ok)
      (fun found s' => if found then HasUnit name md s'.past ∧ SourceFound guestProfile s'.past
        else Empty m name guestProfile md s'.past) (fun _ _ => True) s := by
  obtain ⟨hunit, hfilled, hsource⟩ := hs
  unfold snapshotExists
  split_ifs
  · exact ⟨hunit, hfilled, hsource⟩
  have hother : ∀ a outcome, (∀ out, outcome ≠ .completed 0 out) → Empty m name guestProfile md
      (⟨s.world, .run (.zfsListSnapshot guestProfile.zvolSnapshot), a, outcome⟩ :: s.past) := by
    intro a outcome houtcome
    refine ⟨hunit.cons (by simp) (by simp), by rwa [filled_cons (by simp)], ?_⟩
    rintro (⟨st, hst, hdone⟩ | ⟨st, hst, hfound⟩)
    · rcases List.mem_cons.mp hst with rfl | hst
      · obtain ⟨before, a, out, heq⟩ := hdone
        injection heq with _ _ _ hresp
        exact houtcome out hresp
      · exact hsource (.inl ⟨st, hst, hdone⟩)
    · rcases List.mem_cons.mp hst with rfl | hst
      · obtain ⟨before, a, heq⟩ := hfound
        injection heq with _ hop
        cases hop
      · exact hsource (.inr ⟨st, hst, hfound⟩)
  refine Prog.obeys_bind.mpr (alone_run (fun _ _ => trivial) (fun a code out w' _ _ => ?_)
    fun a w' _ _ => hother a _ (by simp))
  by_cases hcode : code = 0
  · subst hcode
    exact ⟨hunit.cons (by simp) (by simp), .inl ⟨_, List.mem_cons_self, _, _, _, rfl⟩⟩
  · have hfalse : decide (code = 0) = false := by simpa using hcode
    simp only [hfalse]
    exact hother a _ (by simp [hcode])

/-- The copy of the snapshot fills the unit, if it returns. -/
lemma copySnapshot_fills : (copySnapshot m name guestProfile.zvolSnapshot md).Obeys
    (alone m reentrant runtime ok) (fun _ s' => Filled m name guestProfile md s'.past)
    (fun _ _ => True) s := by
  refine Solo.obeys_after (fun _ _ => trivial) fun _ s => Solo.obeys_after (fun _ _ => trivial)
    fun _ s => ?_
  refine Prog.obeys_bind.mpr (alone_run_checked (fun _ _ => trivial) fun a out w' _ _ => ?_)
  refine Prog.obeys_finallyDo.mpr ?_
  have hcloned : Done (.zfsClone guestProfile.zvolSnapshot (m.srcDataset name))
      (⟨s.world, .run (.zfsClone guestProfile.zvolSnapshot (m.srcDataset name)), a,
        .completed 0 out⟩ : Taken) := ⟨_, _, _, rfl⟩
  refine Prog.obeys_bind.mpr (alone_run_checked ?_ fun a' out' w'' _ _ => ?_)
  · exact fun _ _ => Solo.obeys_trivial _
  · have hfilled : Fills m name guestProfile md
        ⟨w', .run (.dd ("/dev/zvol/" ++ m.srcDataset name) md), a', .completed 0 out'⟩
        (⟨s.world, .run (.zfsClone guestProfile.zvolSnapshot (m.srcDataset name)), a,
          .completed 0 out⟩ :: s.past) :=
      .inr ⟨⟨_, _, _, rfl⟩, _, List.mem_cons_self, hcloned⟩
    refine Prog.obeys_pure.mpr (Prog.obeys_bind.mpr ?_)
    exact alone_run (fun _ _ => trivial) (fun _ _ _ _ _ _ => .inr (.inl hfilled))
      fun _ _ _ _ => .inr (.inl hfilled)

lemma copySnapshot_loads (hunit : HasUnit name md s.past)
    (hsource : SourceFound guestProfile s.past) :
    (copySnapshot m name guestProfile.zvolSnapshot md).Obeys (alone m reentrant runtime ok)
      (fun _ s' => Loaded m name guestProfile md s'.past) (fun _ _ => True) s := by
  have hperforms : (copySnapshot m name guestProfile.zvolSnapshot md).Performs
      fun o => o ≠ .run .mdconfigAttach ∧ ∀ assignment, o ≠ .run (.vmSet name assignment) := by
    refine .bind (performs_succeeds (by simp)) fun _ => ?_
    refine .bind (performs_when fun _ => .bind (performs_run (by simp)) fun _ => trivial)
      fun _ => ?_
    refine .bind (performs_run (by simp)) fun _ => .finallyDo ?_ ?_
    · exact .bind (performs_run (by simp)) fun _ => trivial
    · exact .bind (performs_run (by simp)) fun _ => trivial
  have hkeeps : (copySnapshot m name guestProfile.zvolSnapshot md).Obeys
    (alone m reentrant runtime ok)
      (fun _ s => HasUnit name md s.past ∧ SourceFound guestProfile s.past)
      (fun _ s => HasUnit name md s.past ∧ SourceFound guestProfile s.past) s := by
    refine performs_keeps hperforms ?_ ⟨hunit, hsource⟩
    rintro s o a r w' ⟨hattach, hset⟩ ⟨hunit, hsource⟩ -
    exact ⟨hunit.cons hattach hset, hsource.cons _⟩
  refine (hkeeps.and copySnapshot_fills).mono ?_ fun _ _ _ => trivial
  rintro _ s ⟨⟨hunit, hsource⟩, hfilled⟩
  exact ⟨hunit, iff_of_true hfilled hsource⟩

lemma copyImage_loads (hs : Empty m name guestProfile md s.past) :
    (copyImage guestProfile.image md).Obeys (alone m reentrant runtime ok)
      (fun _ s' => Loaded m name guestProfile md s'.past) (fun _ _ => True) s := by
  obtain ⟨hunit, hfilled, hsource⟩ := hs
  refine Prog.obeys_bind.mpr (alone_op fun a found w' _ _ => ?_)
  have hunit' :
    HasUnit name md (⟨s.world, .ask (.isFile guestProfile.image), a, found⟩ :: s.past) :=
    hunit.cons (by simp) (by simp)
  refine obeys_when.mpr ⟨fun hfound => ?_, fun hfound => ?_⟩
  · refine Prog.obeys_bind.mpr (alone_run_checked (fun _ _ => trivial) fun a' out w'' _ _ => ?_)
    refine ⟨hunit'.cons (by simp) (by simp), iff_of_true (.inl (.inl ⟨_, _, _, rfl⟩)) ?_⟩
    refine .inr ⟨_, List.mem_cons_of_mem _ List.mem_cons_self, s.world, a, ?_⟩
    rw [hfound]
  · refine ⟨hunit', iff_of_false (by rwa [filled_cons (by simp)]) ?_⟩
    rintro (⟨st, hst, hdone⟩ | ⟨st, hst, hfile⟩)
    · rcases List.mem_cons.mp hst with rfl | hst
      · obtain ⟨before, a, out, heq⟩ := hdone
        injection heq with _ hop
        cases hop
      · exact hsource (.inl ⟨st, hst, hdone⟩)
    · rcases List.mem_cons.mp hst with rfl | hst
      · obtain ⟨before, a, heq⟩ := hfile
        injection heq with _ _ _ hresp
        exact hfound hresp
      · exact hsource (.inr ⟨st, hst, hfile⟩)

lemma not_filled (h : ∀ st ∈ past, ∀ source md, st.op ≠ .run (.dd source md)) :
    ¬ Filled m name guestProfile md past := by
  induction past with
  | nil => exact id
  | cons st past ih =>
      rw [List.forall_mem_cons] at h
      rw [filled_cons h.1]
      exact ih h.2

lemma not_sourceFound (hlist : ∀ st ∈ past, ∀ snapshot, st.op ≠ .run (.zfsListSnapshot snapshot))
    (hask : ∀ st ∈ past, ∀ path, st.op ≠ .ask (.isFile path)) :
    ¬ SourceFound guestProfile past := by
  rintro (⟨st, hst, before, a, out, rfl⟩ | ⟨st, hst, before, a, rfl⟩)
  · exact hlist _ hst _ rfl
  · exact hask _ hst _ rfl

/-- **The unit that `_create_memdisk` returns** is filled if something to fill it from was found. -/
lemma createMemdisk_loads (hsnapshot : guestProfile.zvolSnapshot ≠ "")
    (himage : guestProfile.image ≠ "")
    (hs : ∀ st ∈ s.past, st.op.isEarly = true) :
    (createMemdisk m name guestProfile.zvolSnapshot guestProfile.image).Obeys
      (alone m reentrant runtime ok) (fun md s' => Loaded m name guestProfile md s'.past)
      (fun _ _ => True) s := by
  unfold createMemdisk
  rw [if_neg hsnapshot, if_neg himage]
  refine Prog.obeys_bind.mpr (alone_run_checked (fun _ _ => trivial) fun a out w' _ _ => ?_)
  dsimp only
  generalize hunit : newMdUnit out = unit
  refine Prog.obeys_bind.mpr (Prog.obeys_ofExcept.mpr ⟨?_, fun _ _ => trivial⟩)
  rintro md rfl
  have hempty : Empty m name guestProfile md
      (⟨s.world, .run .mdconfigAttach, a, .completed 0 out⟩ :: s.past) := by
    have hother : ∀ o : Op, o.isEarly = false → ∀ st ∈ s.past, st.op ≠ o := by
      rintro o hleaves st hst rfl
      rw [hs st hst] at hleaves
      cases hleaves
    refine ⟨⟨?_, ?_⟩, ?_, ?_⟩
    · rw [allocated, hunit]
      rfl
    · exact List.forall_mem_cons.mpr ⟨by simp, fun st hst _ => hother _ rfl st hst⟩
    · rw [filled_cons (by simp)]
      exact not_filled fun st hst _ _ => hother _ rfl st hst
    · rw [sourceFound_cons (by simp) (by simp)]
      exact not_sourceFound (fun st hst _ => hother _ rfl st hst) fun st hst _ =>
        hother _ rfl st hst
  refine Prog.obeys_bind.mpr
    ((snapshotExists_obeys hempty).mono (fun found s hs => ?_) fun _ _ h => h)
  refine Prog.obeys_bind.mpr ?_
  cases found with
  | true =>
      rw [if_pos rfl]
      exact (copySnapshot_loads hs.1 hs.2).mono (fun _ s hs => hs) fun _ _ h => h
  | false =>
      rw [if_neg (by simp)]
      exact (copyImage_loads hs).mono (fun _ s hs => hs) fun _ _ h => h

lemma Assigned.cons_iff : Assigned m runtime name md (st :: past)
    ↔ st.op = .run (.vmSet name ("disk0_name=/dev/" ++ md)) ∧ Took m runtime st = true
      ∨ Assigned m runtime name md past := by
  simp [Assigned]

/-- The first `vm set` makes the unit the VM's disk, or leaves the template's there. -/
lemma Loaded.configured (h : Loaded m name guestProfile md past)
    (hdisk : disk0 m runtime name past = some "/dev/md0")
    (hst : st.op = .run (.vmSet name ("disk0_name=/dev/" ++ md))) :
    Configured m runtime name guestProfile md (st :: past) := by
  refine ⟨?_, ?_, ?_⟩
  · rw [allocated_cons (by simp [hst]), h.unit]
  · rw [filled_cons (by simp [hst]), h.filled, sourceFound_cons (by simp [hst]) (by simp [hst])]
  · have hunassigned : ¬ Assigned m runtime name md past := by
      rintro ⟨st', hst', hop, -⟩
      exact h.unset st' hst' _ hop
    have htemplate : ("/dev/md0" = "/dev/" ++ md) ↔ md = "md0" := by
      rw [show ("/dev/md0" : String) = "/dev/" ++ "md0" from rfl, String.append_right_inj, eq_comm]
    rw [Assigned.cons_iff, or_iff_left hunassigned, and_iff_right hst, disk0]
    cases htook : Took m runtime st with
    | true => simp [hst, diskName_unit]
    | false => simp [hdisk, htemplate]

/-- The VM is created and configured. -/
lemma memdiskVmDisk_configures {key netconfig : String} {record : RuntimeRecord}
    (hsnapshot : guestProfile.zvolSnapshot ≠ "") (himage : guestProfile.image ≠ "")
    (htemplate : templateDisk0 guestProfile.memdiskTemplate = some "/dev/md0")
    (hs : ∀ st ∈ s.past, st.op.isEarly = true) :
    (memdiskVmDisk m name key netconfig guestProfile record).Obeys (alone m reentrant runtime ok)
      (fun _ s' => ∃ md, Configured m runtime name guestProfile md s'.past)
      (fun _ _ => True) s := by
  refine Prog.obeys_bind.mpr ((createMemdisk_loads hsnapshot himage hs).mono (fun md s hs => ?_)
    fun _ _ h => h)
  refine Prog.obeys_bind.mpr (alone_run_checked (fun _ _ => trivial) fun a out w' _ hexec => ?_)
  have htook := took_of_done (a := a) rfl hexec
  have hloaded : Loaded m name guestProfile md
      (⟨s.world, .run (.vmCreate guestProfile.memdiskTemplate none key netconfig name), a,
        .completed 0 out⟩ :: s.past) := by
    refine ⟨hs.toHasUnit.cons (by simp) (by simp), ?_⟩
    rw [filled_cons (by simp), hs.filled, sourceFound_cons (by simp) (by simp)]
  have hdisk : disk0 m runtime name
      (⟨s.world, .run (.vmCreate guestProfile.memdiskTemplate none key netconfig name), a,
        .completed 0 out⟩ :: s.past) = some "/dev/md0" := by
    simp [disk0, htook, htemplate]
  have hdev : ∀ s, Configured m runtime name guestProfile md s.past →
      (do let _ ← run (.vmSet name "disk0_dev=custom") false : Program Unit).Obeys
        (alone m reentrant runtime ok) (fun _ s => Configured m runtime name guestProfile md s.past)
        (fun _ _ => True) s := by
    intro s hs
    exact Prog.obeys_bind.mpr
      (alone_run (fun _ _ => trivial) (fun _ _ _ _ _ _ => hs.cons (.inr rfl))
      fun _ _ _ _ => hs.cons (.inr rfl))
  refine Prog.obeys_bind.mpr (Prog.obeys_bind.mpr (alone_run (fun _ _ => trivial) ?_ ?_))
  · intro a' code out' w'' _ _
    exact (hdev _ (hloaded.configured hdisk rfl)).mono (fun _ _ hs => ⟨md, hs⟩) fun _ _ h => h
  · intro a' w'' _ _
    exact (hdev _ (hloaded.configured hdisk rfl)).mono (fun _ _ hs => ⟨md, hs⟩) fun _ _ h => h

/-- Code that leaves the disks of VMs alone. -/
lemma configured_keeps {p : Program α} (hp : p.Performs fun o => o.leavesDisks = true)
    (hs : ∃ md, Configured m runtime name guestProfile md s.past) :
    p.Obeys (alone m reentrant runtime ok)
      (fun _ s => ∃ md, Configured m runtime name guestProfile md s.past) (fun _ _ => True) s := by
  refine (performs_keeps (I := fun s => ∃ md, Configured m runtime name guestProfile md s.past) hp
    ?_ hs).mono (fun _ _ h => h) fun _ _ _ => trivial
  rintro s o a r w' ho ⟨md, hs⟩ -
  exact ⟨md, hs.cons (.inl ho)⟩

/-- Code in front of the `try` block, and what follows it. -/
lemma early_bind {p : Program α} {f : α → Program β} {Q : β → Alone → Prop}
    (hp : p.Performs fun o => o.isEarly = true) (hs : ∀ st ∈ s.past, st.op.isEarly = true)
    (h : ∀ a s, (∀ st ∈ s.past, st.op.isEarly = true) →
      (f a).Obeys (alone m reentrant runtime ok) Q (fun _ _ => True) s) :
    (p >>= f).Obeys (alone m reentrant runtime ok) Q (fun _ _ => True) s := by
  refine Prog.obeys_bind.mpr ((performs_keeps (I := fun s => ∀ st ∈ s.past, st.op.isEarly = true) hp
    ?_ hs).mono (fun a s hs => h a s hs) fun _ _ _ => trivial)
  intro s o a r w' ho hs _
  exact List.forall_mem_cons.mpr ⟨ho, hs⟩

lemma early_of_plain {p : Program α} (h : Plain p) : p.Performs fun o => o.isEarly = true := by
  refine h.mono fun o ho => ?_
  cases o with
  | run command => cases command <;> first | rfl | cases ho
  | ask question => cases question <;> first | rfl | cases ho
  | _ => rfl

/-- With the handler, nothing more is asked of an exception. -/
lemma cleaningUp_alone {attempt : Program α} {Q : α → Alone → Prop}
    (h : attempt.Obeys (alone m reentrant runtime ok) Q (fun _ _ => True) s) :
    (cleaningUp m name attempt).Obeys (alone m reentrant runtime ok) Q (fun _ _ => True) s := by
  refine Prog.obeys_tryCatch.mpr (h.mono (fun _ _ h => h) fun e s _ => Prog.obeys_bind.mpr ?_)
  exact (Solo.obeys_trivial _).mono (fun _ _ _ => trivial) fun _ _ h => h

lemma createBhyveTry_configures {address : IPv4Address} {profile : String} {record : RuntimeRecord}
    (hbackend : m.config.vmDiskBackend = "memdisk") (hsnapshot : guestProfile.zvolSnapshot ≠ "")
    (himage : guestProfile.image ≠ "")
    (htemplate : templateDisk0 guestProfile.memdiskTemplate = some "/dev/md0")
    (hs : ∀ st ∈ s.past, st.op.isEarly = true) :
    (createBhyveTry m name address profile guestProfile record).Obeys (alone m reentrant runtime ok)
      (fun _ s => ∃ md, Configured m runtime name guestProfile md s.past) (fun _ _ => True) s := by
  have hclones : clonesVmDisk m guestProfile = pure false := by
    rw [clonesVmDisk, if_neg (by simp [hbackend])]
  unfold createBhyveTry createVmDisk
  dsimp only
  rw [hclones, if_pos hbackend]
  refine Prog.obeys_bind.mpr (Prog.obeys_bind.mpr (Prog.obeys_pure.mpr ?_))
  rw [if_neg (by simp)]
  refine (memdiskVmDisk_configures hsnapshot himage htemplate hs).mono (fun record s hs => ?_)
    fun _ _ h => h
  refine configured_keeps (.bind (.bind (performs_op rfl) fun _ => performs_ofExcept) fun _ => ?_)
    hs
  exact .bind (performs_run rfl) fun _ => Prog.performs_pure

/-- What is known of a profile in the table. -/
lemma profile_spec {profile : String} (h : BHYVE_PROFILES.lookup profile = some guestProfile) :
    guestProfile.zvolSnapshot ≠ "" ∧ guestProfile.image ≠ ""
      ∧ templateDisk0 guestProfile.memdiskTemplate = some "/dev/md0" := by
  have hall : ∀ entry ∈ BHYVE_PROFILES, entry.2.zvolSnapshot ≠ "" ∧ entry.2.image ≠ ""
      ∧ templateDisk0 entry.2.memdiskTemplate = some "/dev/md0" := by
    decide
  obtain ⟨before, after, hlist, -⟩ := List.lookup_eq_some_iff.mp h
  exact hall (profile, guestProfile) (hlist ▸ by simp)

/-- The body of `create_bhyve`: preparations, the client's key, and the VM. -/
lemma createBhyveBody_configures {profile publicKey : String} {ownerPid : ℤ}
    {peer : PeerCredentials}
    (hbackend : m.config.vmDiskBackend = "memdisk")
    (hprofile : BHYVE_PROFILES.lookup profile = some guestProfile)
    (hs : ∀ st ∈ s.past, st.op.isEarly = true) :
    (createBhyveBody m name ownerPid peer publicKey profile).Obeys (alone m reentrant runtime ok)
      (fun _ s => ∃ md, Configured m runtime name guestProfile md s.past) (fun _ _ => True) s := by
  obtain ⟨hsnapshot, himage, htemplate⟩ := profile_spec hprofile
  unfold createBhyveBody
  rw [hprofile]
  refine Prog.obeys_bind.mpr (Prog.obeys_ofExcept.mpr ⟨fun name' hname => ?_, fun _ _ => trivial⟩)
  obtain ⟨rfl, -⟩ := validateName_eq_ok.mp hname
  generalize validateSshPublicKey publicKey = key
  refine early_bind performs_ofExcept hs fun key s hs => ?_
  refine early_bind (early_of_plain (plain_ownerFromPeer _ _)) hs fun owner s hs => ?_
  refine early_bind (performs_requireVmBackend rfl) hs fun _ s hs => ?_
  refine early_bind (early_of_plain (plain_reconcileRegistered _)) hs fun _ s hs => ?_
  refine early_bind (early_of_plain plain_ensureBridge) hs fun _ s hs => ?_
  refine early_bind (early_of_plain plain_ensureVmSwitch) hs fun _ s hs => ?_
  refine early_bind (performs_succeeds rfl) hs fun present s hs => ?_
  refine early_bind (performs_when fun _ => trivial) hs fun _ s hs => ?_
  refine early_bind (early_of_plain plain_allocate) hs fun address s hs => ?_
  refine early_bind (performs_run rfl) hs fun _ s hs => ?_
  refine early_bind (.bind (performs_op rfl) fun _ => performs_ofExcept) hs fun _ s hs => ?_
  refine early_bind (.tryCatch (early_of_plain (plain_file _)) fun _ => ?_) hs fun _ s hs => ?_
  · exact .bind (early_of_plain (plain_destroy _ _)) fun _ => trivial
  refine Prog.obeys_finallyDo.mpr ?_
  refine (cleaningUp_alone (createBhyveTry_configures hbackend hsnapshot himage htemplate hs)).mono
    (fun _ s hs => ?_) fun _ s _ => Solo.obeys_trivial _
  refine configured_keeps (.bind (performs_op rfl) fun _ => .ite (fun _ => ?_) fun _ => trivial) hs
  exact .bind (performs_op rfl) fun _ => performs_ofExcept

lemma ownDisk_iff (hs : ∃ md, Configured m runtime name guestProfile md past) :
    OwnDisk m runtime name guestProfile past ↔
      (∃ md, allocated past = some md ∧ (md = "md0" ∨ Assigned m runtime name md past))
        ∧ SourceFound guestProfile past := by
  obtain ⟨md, hs⟩ := hs
  simp [OwnDisk, hs.unit, hs.disk, hs.filled]

/-- **A VM that `create_bhyve` has created runs on its own, filled memory disk if and only if** the
unit has been made its disk (by a `vm set` that did its work, or because it is `/dev/md0` itself)
and the snapshot or the image was found. -/
theorem own_disk_iff (m : RuntimeManager) (reentrant : Bool) (runtime name : String) (w : World)
    (hbackend : m.config.vmDiskBackend = "memdisk") (profile : String)
    (hprofile : BHYVE_PROFILES.lookup profile = some guestProfile) (ownerPid : ℤ)
    (peer : PeerCredentials) (publicKey : String) :
    (createBhyve m name ownerPid peer publicKey profile).Obeys
      (alone m reentrant runtime fun _ _ => true)
      (fun _ s => OwnDisk m runtime name guestProfile s.past ↔
        (∃ md, allocated s.past = some md ∧ (md = "md0" ∨ Assigned m runtime name md s.past))
          ∧ SourceFound guestProfile s.past)
      (fun _ _ => True) w.alone := by
  obtain ⟨hsnapshot, himage, htemplate⟩ := profile_spec hprofile
  refine Prog.Obeys.mono ?_ (fun _ _ => ownDisk_iff) fun _ _ h => h
  have hstart : ∀ st ∈ w.alone.past, st.op.isEarly = true := by simp [World.alone]
  refine early_bind (performs_op rfl) hstart fun _ s hs => ?_
  refine early_bind (performs_op rfl) hs fun _ s hs => Prog.obeys_finallyDo.mpr ?_
  refine (createBhyveBody_configures hbackend hprofile hs).mono (fun _ s hs => ?_)
    fun _ s _ => Solo.obeys_trivial _
  exact configured_keeps (performs_op rfl) hs

end Request

/-- A daemon with the `memdisk` backend. -/
def memdiskManager : RuntimeManager :=
  { RuntimeManager.standard with
    config := { vmDiskBackend := "memdisk" }
    parents_outside := RuntimeManager.standard.parents_outside }

/-- A host where another VM already runs on `/dev/md0`. -/
def oneMemoryDisk : World :=
  { sampleWorld with
    host :=
      { mds := (∅ : Units).insert 0 "freebsd-lab-b"
        snapshots := ["zroot/vm/.zvol/freebsd-python@ready"]
        vmInstalled := true }
    bridgeConfigured := true
    vmSwitchConfigured := true }

/-- Every outcome of a VM's creation there falls under the equivalence. -/
theorem own_disk_iff_of_memdisk : ∃ guestProfile, BHYVE_PROFILES.lookup "freebsd-python"
    = some guestProfile
    ∧ (createBhyve memdiskManager "freebsd-lab-a" 100 ⟨100, 1001, 1001⟩ sampleKey
      "freebsd-python").Obeys
      (alone memdiskManager false "freebsd-lab-a" fun _ _ => true)
      (fun _ s => OwnDisk memdiskManager "freebsd-lab-a" "freebsd-lab-a" guestProfile s.past ↔
        (∃ md, allocated s.past = some md
          ∧ (md = "md0" ∨ Assigned memdiskManager "freebsd-lab-a" "freebsd-lab-a" md s.past))
          ∧ SourceFound guestProfile s.past)
      (fun _ _ => True) oneMemoryDisk.alone :=
  ⟨_, rfl, own_disk_iff memdiskManager false "freebsd-lab-a" "freebsd-lab-a" oneMemoryDisk rfl
    "freebsd-python" rfl 100 ⟨100, 1001, 1001⟩ sampleKey⟩

/-- The answers where the first `vm set` fails, which nobody looks at. -/
def withFailedVmSet : List Answer :=
  let done : Answer := {}
  List.replicate 20 done ++ { done with exit := .status 1 "" false } :: List.replicate 5 done

set_option maxRecDepth 10000 in
/-- `create_bhyve` returns, the VM has been started, and its disk is that of the other one. -/
theorem other_disk_taken : ¬ ∀ guestProfile, BHYVE_PROFILES.lookup "freebsd-python"
    = some guestProfile →
    (createBhyve memdiskManager "freebsd-lab-a" 100 ⟨100, 1001, 1001⟩ sampleKey
      "freebsd-python").Obeys
      (alone memdiskManager false "freebsd-lab-a" fun _ _ => true)
      (fun _ s => OwnDisk memdiskManager "freebsd-lab-a" "freebsd-lab-a" guestProfile s.past)
      (fun _ _ => True) oneMemoryDisk.alone := by
  intro h
  have hrun : ∃ result s, Solo.follow (exec memdiskManager false 0 "freebsd-lab-a")
    (fun _ _ => true)
      withFailedVmSet
      (createBhyve memdiskManager "freebsd-lab-a" 100 ⟨100, 1001, 1001⟩ sampleKey "freebsd-python")
      oneMemoryDisk.alone = some (.ret result, s) ∧ allocated s.past = some "md1"
        ∧ disk0 memdiskManager "freebsd-lab-a" "freebsd-lab-a" s.past = some "/dev/md0" :=
    ⟨_, _, rfl, rfl, rfl⟩
  obtain ⟨result, s, hfollow, hallocated, hdisk⟩ := hrun
  have hown : OwnDisk _ _ _ _ s.past := Solo.obeys_of_follow (h _ rfl) hfollow
  obtain ⟨md, hmd, hdisk', -⟩ := hown
  obtain rfl := Option.some.inj (hallocated.symm.trans hmd)
  rw [hdisk] at hdisk'
  exact absurd (Option.some.inj hdisk') (by decide)

end FreebsdLaboratory
