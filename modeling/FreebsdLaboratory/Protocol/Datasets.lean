import FreebsdLaboratory.Protocol.Coherence

/-!
# Whose dataset a dataset is

The daemon destroys datasets recursively, by name.  A runtime owns what lies below its jail dataset
or its VM dataset; no two runtimes own the same dataset, because a runtime's name is one component
of a path and no parent lies in a dataset of a runtime.
-/

namespace FreebsdLaboratory

open Library Text

variable {m : RuntimeManager} {name name' d : String}

/-! ## Names as components -/

theorem not_isNameChar_slash : isNameChar '/' = false := by decide

/-- A runtime's name is one component of a path. -/
theorem slash_notMem_name (h : isRuntimeName name = true) : '/' ∉ name.toList := by
  obtain ⟨tail, htail, -, -, hall⟩ := isRuntimeName_iff.mp h
  rw [htail, List.mem_append]
  rintro (hmem | hmem)
  · exact absurd hmem (by decide)
  · simpa [not_isNameChar_slash] using hall _ hmem

/-- A name followed by `-src` is no runtime's name. -/
theorem name_ne_src (h : isRuntimeName name = true) (h' : isRuntimeName name' = true) :
    name.toList ≠ name'.toList ++ "-src".toList := by
  obtain ⟨tail, htail, -, -, hall⟩ := isRuntimeName_iff.mp h
  obtain ⟨tail', htail', -⟩ := isRuntimeName_iff.mp h'
  intro heq
  rw [htail, htail', List.append_assoc, List.append_cancel_left_eq] at heq
  have hdash := hall '-' (by rw [heq]; simp)
  exact absurd hdash (by decide)

/-! ## Roots -/

theorem jailDataset_toList : (m.jailDataset name).toList
    = (rstripChar '/' m.config.jailDatasetParent).toList ++ '/' :: name.toList := by
  simp [RuntimeManager.jailDataset, RuntimeConfig.jailDataset]

theorem vmDataset_toList : (m.vmDataset name).toList
    = m.config.vmDatasetParent.toList ++ '/' :: name.toList := by
  simp [RuntimeManager.vmDataset, RuntimeConfig.vmDataset]

theorem srcDataset_toList : (m.srcDataset name).toList
    = m.config.vmZvolParent.toList ++ '/' :: (name.toList ++ "-src".toList) := by
  simp [RuntimeManager.srcDataset, RuntimeConfig.srcDataset]

/-- The root of a runtime's datasets is above no other path directly below a parent. -/
theorem root_eq_of_below {root parent : String} {n : List Char} (hname : isRuntimeName name = true)
    (hroot : root ∈ m.config.roots name) (hparent : parent ∈ m.config.parents) (hn : '/' ∉ n)
    (h : Below root.toList (parent.toList ++ '/' :: n)) :
    root.toList = parent.toList ++ '/' :: n := by
  rcases h.of_last hn with h | h
  · exact h
  · have := m.parents_outside name hname root hroot parent hparent
    rw [isBelow_iff.mpr h] at this
    exact absurd this (by decide)

/-! ## Ownership -/

/-- A dataset of the runtime: its jail's, its VM's, or one below. -/
def RuntimeManager.Owns (m : RuntimeManager) (name d : String) : Prop :=
  isBelow (m.jailDataset name) d = true ∨ isBelow (m.vmDataset name) d = true

/-- The root through which a runtime owns a dataset. -/
theorem RuntimeManager.Owns.root (h : m.Owns name d) :
    ∃ root ∈ m.config.roots name, ∃ parent ∈ m.config.parents,
      root.toList = parent.toList ++ '/' :: name.toList ∧ Below root.toList d.toList := by
  rcases h with h | h
  · exact ⟨_, by simp [RuntimeConfig.roots, RuntimeManager.jailDataset], _,
      by simp [RuntimeConfig.parents], jailDataset_toList, isBelow_iff.mp h⟩
  · exact ⟨_, by simp [RuntimeConfig.roots, RuntimeManager.vmDataset], _,
      by simp [RuntimeConfig.parents], vmDataset_toList, isBelow_iff.mp h⟩

/-- **A dataset has at most one owner.** -/
theorem RuntimeManager.Owns.unique (hname : isRuntimeName name = true)
    (hname' : isRuntimeName name' = true) (h : m.Owns name d) (h' : m.Owns name' d) :
    name = name' := by
  obtain ⟨root, hroot, parent, hparent, heq, hbelow⟩ := h.root
  obtain ⟨root', hroot', parent', hparent', heq', hbelow'⟩ := h'.root
  have hn := slash_notMem_name hname
  have hn' := slash_notMem_name hname'
  apply String.toList_inj.mp
  rcases hbelow.comparable hbelow' with hcmp | hcmp
  · rw [heq'] at hcmp
    have := root_eq_of_below hname hroot hparent' hn' hcmp
    rw [heq] at this
    exact last_unique hn hn' this
  · rw [heq] at hcmp
    have := root_eq_of_below hname' hroot' hparent hn hcmp
    rw [heq'] at this
    exact (last_unique hn' hn this).symm

/-- A temporary clone is no runtime's dataset. -/
theorem not_owns_of_src (hname : isRuntimeName name = true) (hname' : isRuntimeName name' = true)
    (h : isBelow (m.srcDataset name') d = true) : ¬ m.Owns name d := by
  intro howns
  obtain ⟨root, hroot, parent, hparent, heq, hbelow⟩ := howns.root
  have hn := slash_notMem_name hname
  have hsrc : '/' ∉ name'.toList ++ "-src".toList := by
    rw [List.mem_append]
    rintro (hmem | hmem)
    · exact slash_notMem_name hname' hmem
    · exact absurd hmem (by decide)
  have hroot' : m.srcDataset name' ∈ m.config.roots name' := by
    simp [RuntimeConfig.roots, RuntimeManager.srcDataset]
  have hne := name_ne_src hname hname'
  rcases hbelow.comparable (isBelow_iff.mp h) with hcmp | hcmp
  · rw [srcDataset_toList] at hcmp
    have := root_eq_of_below hname hroot (by simp [RuntimeConfig.parents]) hsrc hcmp
    rw [heq] at this
    exact hne (last_unique hn hsrc this)
  · rw [heq] at hcmp
    have := root_eq_of_below hname' hroot' hparent hn hcmp
    rw [srcDataset_toList] at this
    exact hne (last_unique hsrc hn this).symm

theorem owns_of_below_vmDataset {p : String} (hp : isBelow (m.vmDataset name) p = true)
    (h : isBelow p d = true) : m.Owns name d :=
  .inr (isBelow_iff.mpr ((isBelow_iff.mp hp).trans (isBelow_iff.mp h)))

/-- `vm_dataset/disk0` lies below the dataset of the VM. -/
theorem isBelow_disk0 : isBelow (m.vmDataset name) (m.vmDataset name ++ "/disk0") = true := by
  rw [isBelow_iff]
  exact .inr ⟨"disk0".toList, by simp⟩

/-- What lies below the dataset a record names belongs to its runtime. -/
theorem Connection.Wrote.owns_of_dataset {c : Connection} {r : RuntimeRecord} {root : String}
    (h : c.Wrote m name r) (hr : r.dataset = .str root) (hd : isBelow root d = true) :
    m.Owns name d := by
  rcases h.dataset with hnull | hjail | hvm
  · simp [hr] at hnull
  · obtain rfl : root = m.jailDataset name := by simpa [hr] using hjail
    exact .inl hd
  · obtain rfl : root = m.vmDataset name := by simpa [hr] using hvm
    exact .inr hd

end FreebsdLaboratory
