import FreebsdLaboratory.Protocol.Coherence

/-!
# What becomes of a lease

A lease is a file that names its owner.  An allocation touches no lease that is there, a release
none of another owner, and clearing none of an owner it is told about; the lease just allocated is
its owner's.
-/

namespace FreebsdLaboratory

open Library

variable {m : RuntimeManager} {reentrant : Bool} {i : ℕ} {runtime name owner : String}
    {w w' : World}
variable {a : Answer} {address : IPv4Address} {dir dir' : LeaseDir} {unreadable stuck : List String}

/-- The address is leased to the name. -/
def LeaseDir.Holds (dir : LeaseDir) (name : String) (address : IPv4Address) : Prop :=
  ∃ text, dir.lookup (leaseName address) = some (.owner text) ∧ Text.strip text = name

/-- An address is leased to one name. -/
theorem LeaseDir.Holds.unique {name' : String} (h : dir.Holds name address)
    (h' : dir.Holds name' address) : name = name' := by
  obtain ⟨text, htext, rfl⟩ := h
  obtain ⟨text', htext', rfl⟩ := h'
  obtain rfl : text = text' := by simpa [htext] using htext'
  rfl

theorem isSpace_of_isNameChar {c : Char} (h : isNameChar c = true) : Text.isSpace c = false := by
  have hrange : 97 ≤ c.toNat ∧ c.toNat ≤ 122 ∨ 48 ≤ c.toNat ∧ c.toNat ≤ 57 := by
    simp only [isNameChar, Bool.or_eq_true, Bool.and_eq_true, decide_eq_true_eq] at h
    exact h
  simp only [Text.isSpace, List.contains_eq_mem, decide_eq_false_iff_not, List.mem_cons,
    List.not_mem_nil, or_false]
  omega

/-- The owner of a lease reads back. -/
theorem strip_owner (h : isRuntimeName owner = true) : Text.strip (owner ++ "\n") = owner := by
  obtain ⟨tail, htail, -, -, hall⟩ := isRuntimeName_iff.mp h
  have hspace : ∀ c ∈ owner.toList, Text.isSpace c = false := by
    rw [htail]
    intro c hc
    rcases List.mem_append.mp hc with hc | hc
    · have hprefix : (RUNTIME_PREFIX.toList.all fun c => !Text.isSpace c) = true := by decide
      simpa using List.all_eq_true.mp hprefix c hc
    · exact isSpace_of_isNameChar (hall c hc)
  have hbreak : ∀ c ∈ ['\n'], Text.isSpace c = true := List.forall_mem_singleton.mpr (by decide)
  rw [Text.strip, String.toList_append, show "\n".toList = ['\n'] from rfl,
    Text.stripChars_append hspace hbreak, String.ofList_toList]

/-! ## The directory -/

/-- **What an allocation does.** -/
theorem allocate_eq_ok (h : m.pool.allocate unreadable dir owner = (.ok address, dir')) :
    m.pool.InRange address ∧ dir.lookup (leaseName address) = none
      ∧ dir' = dir.insert (leaseName address) (.owner (owner ++ "\n")) := by
  unfold IPv4LeasePool.allocate at h
  split_ifs at h
  · simp at h
  split at h
  · rename_i b hfind
    obtain ⟨hb, rfl⟩ := Prod.mk.inj h
    obtain rfl := Except.ok.inj hb
    have hfree := List.find?_some hfind
    simp only [decide_eq_true_eq] at hfree
    exact ⟨IPv4LeasePool.mem_addresses.mp (List.mem_of_find?_eq_some hfind), hfree.1, rfl⟩
  · simp at h

/-- A file more in the place of none. -/
theorem LeaseDir.Holds.insert (h : dir.Holds name address) {b : IPv4Address}
    (hfree : dir.lookup (leaseName b) = none) (file : LeaseFile) :
    LeaseDir.Holds (dir.insert (leaseName b) file) name address := by
  obtain ⟨text, htext, hname⟩ := h
  refine ⟨text, ?_, hname⟩
  rw [AList.lookup_insert_ne, htext]
  intro heq
  rw [heq, hfree] at htext
  simp at htext

theorem LeaseDir.Holds.erase (h : dir.Holds name address) {file : String}
    (hne : leaseName address ≠ file) : LeaseDir.Holds (dir.erase file) name address := by
  obtain ⟨text, htext, hname⟩ := h
  exact ⟨text, by rw [AList.lookup_erase_ne hne, htext], hname⟩

/-- **What a release does**: nothing, or it removes the file of an address, which is a symbolic link
or names the owner; then it does not raise. -/
theorem release_cases (b : String) :
    (m.pool.release unreadable stuck dir b owner).2 = dir
      ∨ ∃ b', (m.pool.release unreadable stuck dir b owner).2 = dir.erase (leaseName b')
        ∧ (∃ removed, (m.pool.release unreadable stuck dir b owner).1 = .ok removed)
        ∧ ∃ file, dir.lookup (leaseName b') = some file
          ∧ ∀ text, file = .owner text → Text.strip text = owner := by
  unfold IPv4LeasePool.release
  by_cases howner : owner = ""
  · exact .inl (by simp [howner])
  rw [if_neg howner]
  cases IPv4Address.parse b with
  | none => exact .inl rfl
  | some b' =>
      dsimp only
      by_cases hout : m.pool.network.contains b' = false ∨ ¬ m.pool.InRange b'
      · exact .inl (by rw [if_pos hout])
      rw [if_neg hout]
      cases hfile : dir.lookup (leaseName b') with
      | none => exact .inl rfl
      | some file =>
          cases file with
          | symlink => exact .inr ⟨b', rfl, ⟨false, rfl⟩, .symlink, hfile, by simp⟩
          | undecodable =>
              dsimp only
              split_ifs <;> exact .inl rfl
          | owner text =>
              dsimp only
              split_ifs with hskip
              · exact .inl rfl
              · exact .inl rfl
              · refine .inr ⟨b', rfl, ⟨true, rfl⟩, .owner text, hfile, fun text' heq => ?_⟩
                obtain rfl := LeaseFile.owner.inj heq
                exact not_not.mp (not_or.mp hskip).2

/-- A release that raises has done nothing. -/
theorem release_error {b : String} {e : PyError}
    (h : (m.pool.release unreadable stuck dir b owner).1 = .error e) :
    (m.pool.release unreadable stuck dir b owner).2 = dir := by
  rcases (release_cases b : (m.pool.release unreadable stuck dir b owner).2
    = dir ∨ _) with hsame | ⟨b', -, ⟨removed, hok⟩, -⟩
  · exact hsame
  · rw [h] at hok
    simp at hok

/-- **A release touches no other owner's lease.** -/
theorem holds_of_release (h : dir.Holds name address) (hne : name ≠ owner) (b : String) :
    LeaseDir.Holds (m.pool.release unreadable stuck dir b owner).2 name address := by
  rcases (release_cases b : (m.pool.release unreadable stuck dir b owner).2
    = dir ∨ _) with hsame | ⟨b', herase, -, file, hfile, howner⟩
  · rwa [hsame]
  · rw [herase]
    refine h.erase fun heq => ?_
    obtain ⟨text, htext, hname⟩ := h
    rw [heq, hfile] at htext
    exact hne (hname ▸ howner text (Option.some.inj htext))

/-- The loop of `clear_orphans` keeps a file that names an active owner. -/
theorem lookup_clearOrphansLoop {active : List String} {text file : String}
    (hactive : Text.strip text ∈ active) :
    ∀ (entries : List (Sigma fun _ : String => LeaseFile)) (dir : LeaseDir),
      (∀ e ∈ entries, e.1 = file → e.2 = .owner text) → dir.lookup file = some (.owner text) →
      (IPv4LeasePool.clearOrphansLoop unreadable stuck active entries dir).2.lookup file
        = some (.owner text)
  | [], dir, _, hdir => hdir
  | ⟨name, content⟩ :: entries, dir, hentries, hdir => by
      have hrest : ∀ e ∈ entries, e.1 = file → e.2 = .owner text :=
        fun e he => hentries e (List.mem_cons_of_mem _ he)
      have hhere : name = file → content = .owner text := hentries ⟨name, content⟩ (by simp)
      have hskip := lookup_clearOrphansLoop hactive entries dir hrest hdir
      have herase : content ≠ .owner text → (IPv4LeasePool.clearOrphansLoop unreadable stuck active
          entries (dir.erase name)).2.lookup file = some (.owner text) := by
        intro hdiff
        refine lookup_clearOrphansLoop hactive entries _ hrest ?_
        rwa [AList.lookup_erase_ne]
        rintro rfl
        exact hdiff (hhere rfl)
      unfold IPv4LeasePool.clearOrphansLoop
      dsimp only
      by_cases hsuffix : Text.endsWith ".lease" name = false
      · rwa [if_pos hsuffix]
      rw [if_neg hsuffix]
      cases content with
      | symlink =>
          dsimp only
          split_ifs
          · exact hdir
          · exact herase (by simp)
      | undecodable =>
          dsimp only
          split_ifs
          · exact hskip
          · exact hdir
      | owner text' =>
          dsimp only
          split_ifs with hkeep
          · exact hskip
          · exact hdir
          · refine herase fun heq => hkeep (.inr ?_)
            obtain rfl := LeaseFile.owner.inj heq
            exact hactive

/-- **Clearing keeps the leases of active owners.** -/
theorem holds_of_clearOrphans {active : List String} (h : dir.Holds name address)
    (hactive : name ∈ active) :
    LeaseDir.Holds (IPv4LeasePool.clearOrphans unreadable stuck dir active).2 name address := by
  obtain ⟨text, htext, rfl⟩ := h
  refine ⟨text, lookup_clearOrphansLoop hactive _ _ (fun e he heq => ?_) htext, rfl⟩
  have hlookup := AList.mem_lookup_iff.mpr (show Sigma.mk e.1 e.2 ∈ dir.entries from he)
  rw [heq, htext] at hlookup
  exact (Option.some.inj hlookup).symm

/-! ## One step of the daemon -/

/-- An allocation gives an address of the range, leased to its owner. -/
theorem holds_of_allocated {r : (Op.leaseAllocate owner).Resp} (hname : isRuntimeName owner = true)
    (he : exec m reentrant i runtime w (.leaseAllocate owner) a = some (r, w'))
    (hr : r = .ok address) : m.pool.InRange address ∧ w'.leases.Holds owner address := by
  have he : w.allocate m owner a = (r, w') := Option.some.inj he
  unfold World.allocate at he
  split_ifs at he
  · simp [← (Prod.mk.inj he).1] at hr
  · split at he
    rename_i result leases hallocate
    cases result with
    | error e => simp [← (Prod.mk.inj he).1] at hr
    | ok b => simp [← (Prod.mk.inj he).1] at hr
  · split at he
    rename_i result leases hallocate
    cases result with
    | error e => simp [← (Prod.mk.inj he).1] at hr
    | ok b =>
        obtain ⟨rfl, rfl⟩ := Prod.mk.inj he
        obtain rfl := Except.ok.inj hr
        obtain ⟨hrange, -, rfl⟩ := allocate_eq_ok hallocate
        exact ⟨hrange, owner ++ "\n", AList.lookup_insert _, strip_owner hname⟩

theorem holds_of_leaseAllocate {r : (Op.leaseAllocate owner).Resp} (h : w.leases.Holds name address)
    (he : exec m reentrant i runtime w (.leaseAllocate owner) a = some (r, w')) :
    w'.leases.Holds name address := by
  have he : w.allocate m owner a = (r, w') := Option.some.inj he
  unfold World.allocate at he
  split_ifs at he
  · obtain ⟨-, rfl⟩ := Prod.mk.inj he
    exact h
  all_goals
    split at he
    rename_i result leases hallocate
    cases result with
    | error e =>
        obtain ⟨-, rfl⟩ := Prod.mk.inj he
        exact h
    | ok b =>
        obtain ⟨-, rfl⟩ := Prod.mk.inj he
        obtain ⟨-, hfree, rfl⟩ := allocate_eq_ok hallocate
        exact h.insert hfree _

theorem holds_of_leaseRelease {b : String} {r : (Op.leaseRelease b owner).Resp}
    (h : w.leases.Holds name address) (hne : name ≠ owner)
    (he : exec m reentrant i runtime w (.leaseRelease b owner) a = some (r, w')) :
    w'.leases.Holds name address := by
  have he : w.releaseLease m b owner a = (r, w') := Option.some.inj he
  unfold World.releaseLease at he
  split_ifs at he
  all_goals obtain ⟨-, rfl⟩ := Prod.mk.inj he
  · exact h
  · exact holds_of_release h hne b
  · exact holds_of_release h hne b

/-- A release that raises before its effect, or by itself, has done nothing. -/
theorem leases_of_release_error {b : String} {r : (Op.leaseRelease b owner).Resp} {e : PyError}
    (he : exec m reentrant i runtime w (.leaseRelease b owner) a = some (r, w')) (hr : r = .error e)
    (heffect : a.fails = true → a.effect = false) : w'.leases = w.leases := by
  have he : w.releaseLease m b owner a = (r, w') := Option.some.inj he
  unfold World.releaseLease at he
  split_ifs at he with hbefore hfails
  all_goals obtain ⟨hres, rfl⟩ := Prod.mk.inj he
  · rfl
  · exact absurd ⟨hfails, by simp [heffect hfails]⟩ hbefore
  · exact release_error (hres.trans hr)

theorem holds_of_leaseClearOrphans {active : List String} {r : (Op.leaseClearOrphans active).Resp}
    (h : w.leases.Holds name address) (hactive : name ∈ active)
    (he : exec m reentrant i runtime w (.leaseClearOrphans active) a = some (r, w')) :
    w'.leases.Holds name address := by
  have he : w.clearOrphans active a = (r, w') := Option.some.inj he
  unfold World.clearOrphans at he
  split_ifs at he
  all_goals obtain ⟨-, rfl⟩ := Prod.mk.inj he
  · exact h
  · exact holds_of_clearOrphans h hactive
  · exact holds_of_clearOrphans h hactive

end FreebsdLaboratory
