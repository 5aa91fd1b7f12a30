import FreebsdLaboratory.Properties.PortSelection
import FreebsdLaboratory.Tunnels.Rollback

/-!
# Calls for ports that fail

An `allocate` that raises closes its sockets and takes back the leases it has recorded.  A lease
file is recorded when `_write_lease` has returned, so the file of a write that raises behind
`os.open` stays; and so does an own lease that cannot be unlinked.  There is no other way to leave a
lease behind.  A lease of a live process is lost where `ps` fails for that process, which reads as
if it were gone.
-/

namespace FreebsdLaboratory

open Library Library.Unicode

/-- No socket and no lease file of the call is left, and all leases of live processes are there. -/
structure Attempt.Clean (t : Attempt) (w : LeaseWorld) : Prop where
  sockets : t.sockets = []
  mine : t.mine = []
  spares : ∀ name ∈ w.files, ∀ port, isLeaseOf port name = true → w.hasLive port name = true →
    name ∈ t.world.files

variable {w : LeaseWorld} {i : ℕ} {c : LeaseCaller} {α : Type}

/-- **A call that raises leaves nothing behind and takes nothing from live processes exactly if it
is neither spoilt nor misled**: no write has failed behind the creation of its file, no own lease
has failed to be unlinked, and no unlinked lease is one of a live process of which `ps` has not
told. -/
theorem raising_allocate_clean_iff
    (hdistinct : ∀ p ∈ w.processes, ∀ q ∈ w.processes, p.pid = q.pid → p = q)
    (pool : LocalPortLeasePool) (owner : Str) (pid count : ℤ) :
    (pool.allocate c.process.pid c.process.uid owner pid count).Obeys (attempts i c)
      (fun _ _ => True) (fun _ t => t.Clean w ↔ t.spoilt = false ∧ t.misled = false)
      (Attempt.fresh w) := by
  refine (allocatePool_attempts hdistinct).mono (fun _ _ h => h) ?_
  intro e t ht
  constructor
  · intro h
    refine ⟨ht.mine.mp h.mine, Bool.eq_false_iff.mpr fun hmisled => ?_⟩
    obtain ⟨name, hname, port, hport, hlive, hgone⟩ := ht.spares.misled hmisled
    have hmem := hgone (h.spares name hname port hport hlive)
    rw [h.mine] at hmem
    cases hmem
  · rintro ⟨hgood, htold⟩
    exact ⟨ht.sockets, ht.mine.mpr hgood, fun name hname port hport hlive =>
      (ht.spares.files htold name hname port hport hlive).1⟩

/-! ## Runs -/

/-- The call when its operations end as given. -/
def Attempt.follow (i : ℕ) (c : LeaseCaller) :
    List LeaseChoice → LeaseProgram α → Attempt → Option (LeaseProgram α × Attempt)
  | [], p, t => some (p, t)
  | choice :: choices, .perform o k, t =>
      match t.world.exec i c o choice with
      | some (r, w') => follow i c choices (k r) (t.next w' o r)
      | none => none
  | _ :: _, _, _ => none

/-- Where operations end as given, the program is checked from there on. -/
lemma Attempt.follow_obeys {Q : α → Attempt → Prop} {R : PyError → Attempt → Prop}
    {choices : List LeaseChoice} {p p' : LeaseProgram α} {t t' : Attempt}
    (h : p.Obeys (attempts i c) Q R t) (hfollow : Attempt.follow i c choices p t = some (p', t')) :
    p'.Obeys (attempts i c) Q R t' := by
  induction choices generalizing p t with
  | nil =>
      obtain ⟨rfl, rfl⟩ := Prod.mk.inj (Option.some.inj hfollow)
      exact h
  | cons choice choices ih =>
      cases p with
      | ret a => cases hfollow
      | raise e => cases hfollow
      | perform o k =>
          simp only [Attempt.follow] at hfollow
          cases hexec : t.world.exec i c o choice with
          | none =>
              rw [hexec] at hfollow
              cases hfollow
          | some s =>
              obtain ⟨r, w'⟩ := s
              rw [hexec] at hfollow
              exact ih (h.2 r _ ⟨choice, w', hexec, rfl⟩) hfollow

/-- The state in which the call raises when its operations end as given. -/
def Attempt.raising (i : ℕ) (c : LeaseCaller) (choices : List LeaseChoice) (p : LeaseProgram α)
    (t : Attempt) : Option Attempt :=
  match Attempt.follow i c choices p t with
  | some (.raise _, t') => some t'
  | _ => none

/-- What is shown of calls that raise holds there. -/
lemma Attempt.raising_obeys {Q : α → Attempt → Prop} {R : Attempt → Prop}
    {choices : List LeaseChoice}
    {p : LeaseProgram α} {t t' : Attempt} (h : p.Obeys (attempts i c) Q (fun _ t => R t) t)
    (hraising : Attempt.raising i c choices p t = some t') : R t' := by
  rw [Attempt.raising] at hraising
  split at hraising
  · rename_i hfollow
    obtain rfl := Option.some.inj hraising
    exact Attempt.follow_obeys h hfollow
  · cases hraising

/-! ## A busy directory -/

/-- A call for all four ports. -/
def callForFour : LeaseProgram LocalPortReservation := fourPorts.allocate 200 1001 (str "a") 200 4

/-- The live lease is found, the stale one is unlinked, the third port is in use, the fourth one is
taken; then there are too few. -/
def toldOf : List LeaseChoice :=
  List.replicate 12 .succeeds ++ .refuses :: List.replicate 8 .succeeds

/-- `ps` fails for the live process, and the new lease cannot be written. -/
def untold : List LeaseChoice :=
  [.succeeds, .succeeds, .succeeds, .succeeds, .refuses, .succeeds, .succeeds, .fails,
    .succeeds, .succeeds]

/-- Two ports are given back and the live lease is there; where `ps` does not tell of its process,
it is gone. -/
theorem raising_allocate_clean_iff_busy :
    (∃ t, Attempt.raising 0 callForOne toldOf callForFour (.fresh busyDirectory) = some t ∧
        t.Clean busyDirectory) ∧
      ∃ t, Attempt.raising 0 callForOne untold callForFour (.fresh busyDirectory) = some t ∧
        ¬ t.Clean busyDirectory := by
  have hiff :=
    raising_allocate_clean_iff (w := busyDirectory) (i := 0) (c := callForOne) (by decide)
    fourPorts (str "a") 200 4
  have htold : ((Attempt.raising 0 callForOne toldOf callForFour (.fresh busyDirectory)).any
      fun t => !t.spoilt && !t.misled) = true := by decide +kernel
  have huntold : ((Attempt.raising 0 callForOne untold callForFour (.fresh busyDirectory)).any
      fun t => t.misled) = true := by decide +kernel
  obtain ⟨t, ht, hgood⟩ := (Option.any_eq_true _ _).mp htold
  obtain ⟨t', ht', hmisled⟩ := (Option.any_eq_true _ _).mp huntold
  refine ⟨⟨t, ht, (Attempt.raising_obeys hiff ht).mpr ?_⟩, t', ht', fun hclean => ?_⟩
  · simpa using hgood
  · have hnot := ((Attempt.raising_obeys hiff ht').mp hclean).2
    rw [hmisled] at hnot
    cases hnot

/-! ## A lease that is left behind -/

/-- The write raises behind the creation of the file: the lease stays. -/
theorem late_write_not_clean : ¬ (fourPorts.allocate 200 1001 (str "a") 200 1).Obeys
    (attempts 0 callForOne) (fun _ _ => True) (fun _ t => t.Clean oneProcess)
    (Attempt.fresh oneProcess) := by
  intro h
  have hrun : ((Attempt.raising 0 callForOne
      [.succeeds, .succeeds, .succeeds, .succeeds, .failsLate, .succeeds, .succeeds]
      (fourPorts.allocate 200 1001 (str "a") 200 1) (.fresh oneProcess)).any
      fun t => !t.mine.isEmpty) = true := by decide +kernel
  obtain ⟨t, ht, hmine⟩ := (Option.any_eq_true _ _).mp hrun
  have hclean := Attempt.raising_obeys (R := fun t => t.Clean oneProcess) h ht
  rw [hclean.mine] at hmine
  cases hmine

end FreebsdLaboratory
