import FreebsdLaboratory.Protocol.Frame

/-!
# What threads know is true

`Coherent` ties the knowledge of all threads to the world: the lock table says who holds what, and
what a thread knows about the registry entry of a runtime whose lock it holds is so.  The second
half rests on the first: an entry is written and deleted only under the lock of its runtime.

`coherent_preserved` is the base of every invariant of the daemon: the results about runs add their
own part to it with `Machine.Preserves.and`.
-/

namespace FreebsdLaboratory

open Library

variable {m : RuntimeManager} {reentrant : Bool} {i j : ℕ} {runtime name : String} {w w₀ w' : World}
variable {o : Op} {a : Answer} {c : Connection} {s s' : Known} {vs : List (Connection × Known)}

/-! ## Threads by number -/

/-- How often thread `j` holds a lock. -/
def depth (vs : List (Connection × Known)) (l : LockId) (j : ℕ) : ℕ :=
  match vs[j]? with
  | some v => v.2.holds.count l
  | none => 0

theorem depth_of_getElem? {v : Connection × Known} (h : vs[j]? = some v) (l : LockId) :
    depth vs l j = v.2.holds.count l := by
  simp [depth, h]

theorem depth_set_self (hi : vs[i]? = some (c, s)) (l : LockId) :
    depth (vs.set i (c, s')) l i = s'.holds.count l := by
  have hlt : i < vs.length := (List.getElem?_eq_some_iff.mp hi).1
  simp [depth, hlt]

theorem depth_set_of_ne {v : Connection × Known} (h : j ≠ i) (l : LockId) :
    depth (vs.set i v) l j = depth vs l j := by
  simp [depth, List.getElem?_set_ne h.symm]

theorem depth_append (l : LockId) (j : ℕ) :
    depth (vs ++ [(c, ({} : Known))]) l j = depth vs l j := by
  unfold depth
  rw [List.getElem?_append]
  split_ifs with hj
  · rfl
  · rw [List.getElem?_eq_none (Nat.le_of_not_lt hj)]
    cases j - vs.length <;> simp

/-! ## Coherence -/

/-- The lock table and the threads agree. -/
def LocksAgree (w : World) (vs : List (Connection × Known)) : Prop :=
  ∀ l j n, w.held l = some (j, n) ↔ 0 < n ∧ depth vs l j = n

/-- What is known about a registry entry is so, and known under the lock of its runtime. -/
def RecordsKnown (w : World) (vs : List (Connection × Known)) : Prop :=
  ∀ (j : ℕ) (v : Connection × Known), vs[j]? = some v → ∀ name xs, v.2.record = some (name, xs) →
    .runtime name ∈ v.2.holds ∧ ∃ x ∈ xs, w.load name = .ok x

/-- A thread holds the lock of one runtime at most. -/
def OneRuntime (vs : List (Connection × Known)) : Prop :=
  ∀ v ∈ vs, ∀ name name', .runtime name ∈ v.2.holds → .runtime name' ∈ v.2.holds → name = name'

structure Coherent (w : World) (vs : List (Connection × Known)) : Prop where
  locks : LocksAgree w vs
  records : RecordsKnown w vs
  single : OneRuntime vs

/-- **A lock has one holder.** -/
theorem LocksAgree.unique (h : LocksAgree w vs) {v v' : Connection × Known} {l : LockId}
    (hi : vs[i]? = some v) (hj : vs[j]? = some v') (hv : l ∈ v.2.holds) (hv' : l ∈ v'.2.holds) :
    i = j := by
  have hi' := (h l i _).mpr ⟨List.count_pos_iff.mpr hv, depth_of_getElem? hi l⟩
  have hj' := (h l j _).mpr ⟨List.count_pos_iff.mpr hv', depth_of_getElem? hj l⟩
  rw [hi'] at hj'
  exact congrArg Prod.fst (Option.some.inj hj')

theorem LocksAgree.of_depth (h : LocksAgree w vs) {vs' : List (Connection × Known)}
    (hheld : w'.held = w.held) (hdepth : ∀ l j, depth vs' l j = depth vs l j) :
    LocksAgree w' vs' := by
  intro l j n
  rw [hheld, hdepth]
  exact h l j n

/-- The entry of a lock no other thread holds follows the thread that takes it or gives it back. -/
theorem LocksAgree.update (h : LocksAgree w vs) (hi : vs[i]? = some (c, s)) {l : LockId} {n : ℕ}
    (s' : Known) (hothers : ∀ j, j ≠ i → depth vs l j = 0) (hcount : s'.holds.count l = n)
    (hrest : ∀ l', l' ≠ l → s'.holds.count l' = s.holds.count l') :
    LocksAgree
      { w with held := Function.update w.held l (if n = 0 then none else some (i, n)) }
      (vs.set i (c, s')) := by
  intro l' j k
  dsimp only
  by_cases hl : l' = l
  · subst hl
    by_cases hj : j = i
    · subst hj
      rw [depth_set_self hi, hcount, Function.update_self]
      split_ifs with hn
      · simp only [false_iff]
        omega
      · simp only [Option.some.injEq, Prod.mk.injEq, true_and]
        omega
    · rw [depth_set_of_ne hj, hothers j hj, Function.update_self]
      split_ifs
      · simp only [false_iff]
        omega
      · simp only [Option.some.injEq, Prod.mk.injEq]
        omega
  · rw [Function.update_of_ne hl, h l' j k]
    by_cases hj : j = i
    · subst hj
      rw [depth_set_self hi, hrest l' hl, depth_of_getElem? hi]
    · rw [depth_set_of_ne hj]

/-- Nobody holds a lock whose entry is empty. -/
theorem LocksAgree.depth_eq_zero (h : LocksAgree w vs) {l : LockId} (hl : w.held l = none) (j : ℕ) :
    depth vs l j = 0 := by
  by_contra hne
  simp [(h l j _).mpr ⟨Nat.pos_of_ne_zero hne, rfl⟩] at hl

/-- Nobody but its holder holds a lock. -/
theorem LocksAgree.depth_others (h : LocksAgree w vs) {l : LockId} {n : ℕ}
    (hl : w.held l = some (i, n)) (hj : j ≠ i) : depth vs l j = 0 := by
  by_contra hne
  have hheld := (h l j _).mpr ⟨Nat.pos_of_ne_zero hne, rfl⟩
  rw [hl] at hheld
  exact hj (congrArg Prod.fst (Option.some.inj hheld)).symm

/-- Taking and giving back locks keeps the table right. -/
theorem LocksAgree.step (h : LocksAgree w vs) (hi : vs[i]? = some (c, s)) {r : o.Resp}
    (hp : Permits m c s o) (he : exec m reentrant i runtime w o a = some (r, w')) :
    LocksAgree w' (vs.set i (c, s.learn o r)) := by
  have hself := depth_of_getElem? hi
  cases htouch : o.touchesLocks with
  | false =>
      refine h.of_depth ((exec_frame he).held htouch) fun l j => ?_
      by_cases hj : j = i
      · subst hj
        rw [depth_set_self hi, Known.learn_holds htouch, hself]
      · rw [depth_set_of_ne hj]
  | true =>
      cases o with
      | acquire l =>
          obtain ⟨w'', hw, hr⟩ := Option.map_eq_some_iff.mp he
          obtain ⟨-, rfl⟩ := Prod.mk.inj hr
          have hrest : ∀ l', l' ≠ l → (l :: s.holds).count l' = s.holds.count l' :=
            fun l' hl' => List.count_cons_of_ne (Ne.symm hl')
          unfold World.acquire at hw
          cases hheld : w.held l with
          | none =>
              have hzero := h.depth_eq_zero hheld
              have hcount : (l :: s.holds).count l = 1 := by
                rw [List.count_cons_self, ← hself l, hzero]
              rw [hheld] at hw
              obtain rfl := Option.some.inj hw
              exact h.update hi { s with holds := l :: s.holds, asked := none }
                (fun j _ => hzero j) hcount
                hrest
          | some e =>
              obtain ⟨j, n⟩ := e
              simp only [hheld] at hw
              split_ifs at hw with hown
              obtain ⟨rfl, -⟩ := hown
              obtain rfl := Option.some.inj hw
              have hcount : (l :: s.holds).count l = n + 1 := by
                rw [List.count_cons_self, ← hself l, ((h l j n).mp hheld).2]
              exact h.update hi { s with holds := l :: s.holds, asked := none }
                (fun j hj => h.depth_others hheld hj) hcount hrest
      | release l =>
          obtain ⟨-, rfl⟩ := Prod.mk.inj (Option.some.inj he)
          obtain ⟨hhead, -⟩ := hp
          have hmem : l ∈ s.holds := List.mem_of_head? hhead
          have hheld := (h l i _).mpr ⟨by rw [hself]; exact List.count_pos_iff.mpr hmem, rfl⟩
          have hothers := fun j (hj : j ≠ i) => h.depth_others hheld hj
          have hcount : (s.releasing l).holds.count l = depth vs l i - 1 := by
            rw [Known.releasing_holds, List.count_erase_self, hself]
          have hrest : ∀ l', l' ≠ l → (s.releasing l).holds.count l' = s.holds.count l' :=
            fun l' hl' => by rw [Known.releasing_holds, List.count_erase_of_ne hl']
          have hupdate := h.update hi (s.releasing l) hothers hcount hrest
          have hpos : 0 < depth vs l i := ((h l i _).mp hheld).1
          unfold World.release
          rw [hheld]
          obtain ⟨n, hn⟩ : ∃ n, depth vs l i = n + 1 := ⟨depth vs l i - 1, by omega⟩
          rw [hn] at hupdate ⊢
          cases n <;> exact hupdate
      | _ => simp [Op.touchesLocks] at htouch

/-! ## Registry entries -/

@[simp] theorem load_storeRecord_self (x : RuntimeRecord) :
    (w.storeRecord name x).load name = .ok (some x) := by
  simp [World.load, World.storeRecord]

@[simp] theorem load_dropRecord_self : (w.dropRecord name).load name = .ok none := by
  simp [World.load, World.dropRecord]

theorem load_storeRecord_of_ne {name' : String} (h : name' ≠ name) (x : RuntimeRecord) :
    (w.storeRecord name x).load name' = w.load name' := by
  simp [World.load, World.storeRecord, AList.lookup_insert_ne h]

theorem load_dropRecord_of_ne {name' : String} (h : name' ≠ name) :
    (w.dropRecord name).load name' = w.load name' := by
  simp [World.load, World.dropRecord, AList.lookup_erase_ne h]

theorem mem_keys_of_load {x : RuntimeRecord} (h : w.load name = .ok (some x)) :
    name ∈ w.registry.keys := by
  by_contra hmem
  have hnone : w.registry.lookup name = none :=
    AList.lookup_eq_none.mpr fun h => hmem (AList.mem_keys.mp h)
  simp [World.load, hnone] at h

theorem load_of_get? {x : RuntimeRecord} (h : w.registry.get? name = some x) :
    w.load name = .ok (some x) := by
  unfold Registry.get? at h
  unfold World.load
  split at h
  · rename_i hlookup
    rw [hlookup, Option.some.inj h]
  · simp at h

theorem load_congr (h : w'.registry = w.registry) (name : String) : w'.load name = w.load name := by
  simp [World.load, h]

/-- A file operation has happened or not; it reports success only if it has. -/
theorem fileStep_cases {w'' : World} {x : Except PyError Unit} (h : w.fileStep a w' = (x, w'')) :
    x = .ok () ∧ a.fails = false ∧ w'' = w'
      ∨ (∃ e, x = .error e) ∧ a.fails = true
        ∧ (w'' = w' ∧ a.effect = true ∨ w'' = w ∧ a.effect = false) := by
  unfold World.fileStep at h
  split_ifs at h with hf he
  · obtain ⟨rfl, rfl⟩ := Prod.mk.inj h
    exact .inr ⟨⟨_, rfl⟩, hf, .inl ⟨rfl, he⟩⟩
  · obtain ⟨rfl, rfl⟩ := Prod.mk.inj h
    exact .inr ⟨⟨_, rfl⟩, hf, .inr ⟨rfl, by simpa using he⟩⟩
  · obtain ⟨rfl, rfl⟩ := Prod.mk.inj h
    exact .inl ⟨rfl, by simpa using hf, rfl⟩

/-- **What writing a record does.** -/
theorem writeRegistry_cases {x : RuntimeRecord} {r : (Op.writeRegistry x).Resp}
    (hname : isRuntimeName name = true) (hx : x.name = .str name)
    (he : exec m reentrant i runtime w (.writeRegistry x) a = some (r, w')) :
    r = .ok () ∧ a.fails = false ∧ w' = w.storeRecord name x
      ∨ (∃ e, r = .error e) ∧ a.fails = true
        ∧ (w' = w.storeRecord name x ∧ a.effect = true ∨ w' = w ∧ a.effect = false) := by
  have he : w.writeRecord x a = (r, w') := Option.some.inj he
  unfold World.writeRecord at he
  rw [hx] at he
  simp only [validateName, hname, if_true] at he
  exact fileStep_cases he

/-- **What deleting a record does.** -/
theorem deleteRegistry_cases {r : (Op.deleteRegistry name).Resp}
    (he : exec m reentrant i runtime w (.deleteRegistry name) a = some (r, w')) :
    r = .ok () ∧ a.fails = false ∧ w' = w.dropRecord name
      ∨ (∃ e, r = .error e) ∧ a.fails = true
        ∧ (w' = w.dropRecord name ∧ a.effect = true ∨ w' = w ∧ a.effect = false) :=
  fileStep_cases (Option.some.inj he)

/-- The runtime whose entry an operation may change. -/
def Op.entry : Op → Option String
  | .writeRegistry x => x.name.asStr
  | .deleteRegistry name => some name
  | _ => none

/-- An entry is changed only under the lock of its runtime. -/
theorem holds_of_entry (hp : Permits m c s o) (h : o.entry = some name) :
    .runtime name ∈ s.holds ∧ isRuntimeName name = true := by
  cases o with
  | writeRegistry x =>
      obtain ⟨name', hcreating, hname, hwrote, -⟩ := hp
      obtain rfl : name' = name := by simpa [Op.entry, hwrote.named, RecordValue.asStr] using h
      exact ⟨by simp [hcreating.holds], hname⟩
  | deleteRegistry name' =>
      obtain ⟨x, hwork⟩ := hp
      obtain rfl : name' = name := by simpa [Op.entry] using h
      exact ⟨hwork.destroying.1, hwork.named⟩
  | _ => simp [Op.entry] at h

/-- All other entries stay. -/
theorem load_of_entry_ne {r : o.Resp} (hp : Permits m c s o) (h : o.entry ≠ some name)
    (he : exec m reentrant i runtime w o a = some (r, w')) : w'.load name = w.load name := by
  cases o with
  | writeRegistry x =>
      obtain ⟨name', -, hname, hwrote, -⟩ := hp
      have hne : name ≠ name' := by
        rintro rfl
        simp [Op.entry, hwrote.named, RecordValue.asStr] at h
      rcases writeRegistry_cases hname hwrote.named
        he with ⟨-, -, rfl⟩ | ⟨-, -, ⟨rfl, -⟩ | ⟨rfl, -⟩⟩
      · exact load_storeRecord_of_ne hne x
      · exact load_storeRecord_of_ne hne x
      · rfl
  | deleteRegistry name' =>
      have hne : name ≠ name' := by
        rintro rfl
        simp [Op.entry] at h
      rcases deleteRegistry_cases he with ⟨-, -, rfl⟩ | ⟨-, -, ⟨rfl, -⟩ | ⟨rfl, -⟩⟩
      · exact load_dropRecord_of_ne hne
      · exact load_dropRecord_of_ne hne
      · rfl
  | _ => exact load_congr ((exec_frame he).registry rfl) name

/-- **A record that was not there before a step is one the step has written.** -/
theorem write_of_new_record (hp : Permits m c s o) {r : o.Resp} {x : RuntimeRecord}
    (he : exec m reentrant i runtime w o a = some (r, w')) (hnew : w'.load name = .ok (some x))
    (hold : w.load name ≠ .ok (some x)) : o = .writeRegistry x ∧ PermitsWrite m c s name x := by
  have hentry : o.entry = some name := by
    by_contra hne
    exact hold (load_of_entry_ne hp hne he ▸ hnew)
  cases o with
  | writeRegistry y =>
      obtain ⟨name', hwrite⟩ := hp
      have hnamed := hwrite.2.2.1.named
      obtain rfl : name' = name := by simpa [Op.entry, hnamed, RecordValue.asStr] using hentry
      have hload : w'.load name' = .ok (some y) ∨ w'.load name' = w.load name' := by
        rcases writeRegistry_cases hwrite.2.1 hnamed
          he with ⟨-, -, rfl⟩ | ⟨-, -, ⟨rfl, -⟩ | ⟨rfl, -⟩⟩
        · exact .inl (load_storeRecord_self y)
        · exact .inl (load_storeRecord_self y)
        · exact .inr rfl
      rcases hload with hload | hload
      · obtain rfl : y = x := by simpa [hload] using hnew
        exact ⟨rfl, hwrite⟩
      · exact absurd (hload ▸ hnew) hold
  | deleteRegistry name' =>
      obtain rfl : name' = name := by simpa [Op.entry] using hentry
      rcases deleteRegistry_cases he with ⟨-, -, rfl⟩ | ⟨-, -, ⟨rfl, -⟩ | ⟨rfl, -⟩⟩
      · simp at hnew
      · simp at hnew
      · exact absurd hnew hold
  | _ => simp [Op.entry] at hentry

/-! ## One step -/

/-- What a thread knows about the entry it works on stays true. -/
theorem record_step {r : o.Resp}
    (hs : ∀ name xs, s.record = some (name, xs) →
      .runtime name ∈ s.holds ∧ ∃ x ∈ xs, w.load name = .ok x)
    (hp : Permits m c s o) (he : exec m reentrant i runtime w o a = some (r, w')) :
    ∀ name xs, (s.learn o r).record = some (name, xs) →
      .runtime name ∈ (s.learn o r).holds ∧ ∃ x ∈ xs, w'.load name = .ok x := by
  intro name xs hrecord
  cases o with
  | loadRegistry name' =>
      obtain ⟨hr, rfl⟩ := Prod.mk.inj (Option.some.inj he)
      cases r with
      | error e => exact hs name xs hrecord
      | ok x =>
          simp only [Known.learn] at hrecord ⊢
          split_ifs at hrecord with hhold
          · simp only [Option.some.injEq, Prod.mk.injEq] at hrecord
            obtain ⟨rfl, rfl⟩ := hrecord
            rw [if_pos hhold]
            refine ⟨hhold, x, by simp, ?_⟩
            split_ifs at hr
            exact hr
          · rw [if_neg hhold]
            exact hs name xs hrecord
  | writeRegistry x =>
      obtain ⟨name', hcreating, hname, hwrote, -, hknows⟩ := hp
      have hknown : ∃ x₀, s.record = some (name', [x₀]) := by
        rcases hknows with ⟨hk, -⟩ | ⟨r₀, hk, -⟩
        · exact ⟨_, hk⟩
        · exact ⟨_, hk⟩
      obtain ⟨x₀, hx₀⟩ := hknown
      obtain ⟨hhold, y, hy, hload⟩ := hs _ _ hx₀
      obtain rfl : y = x₀ := by simpa using hy
      rcases writeRegistry_cases hname hwrote.named he with ⟨rfl, -, rfl⟩ | ⟨⟨e, rfl⟩, -, hw⟩
      · simp only [Known.learn, hx₀, Option.map_some, Option.some.injEq, Prod.mk.injEq] at hrecord
        obtain ⟨rfl, rfl⟩ := hrecord
        exact ⟨hhold, some x, by simp, load_storeRecord_self x⟩
      · simp only [Known.learn, hx₀, Option.map_some, Option.some.injEq, Prod.mk.injEq] at hrecord
        obtain ⟨rfl, rfl⟩ := hrecord
        rcases hw with ⟨rfl, -⟩ | ⟨rfl, -⟩
        · exact ⟨hhold, some x, by simp, load_storeRecord_self x⟩
        · exact ⟨hhold, y, by simp, hload⟩
  | deleteRegistry name' =>
      obtain ⟨x, hwork⟩ := hp
      have hx : s.record = some (name', [x]) := hwork.knows
      obtain ⟨hhold, y, hy, hload⟩ := hs _ _ hx
      obtain rfl : y = x := by simpa using hy
      rcases deleteRegistry_cases he with ⟨rfl, -, rfl⟩ | ⟨⟨e, rfl⟩, -, hw⟩
      · simp only [Known.learn, Option.some.injEq, Prod.mk.injEq] at hrecord
        obtain ⟨rfl, rfl⟩ := hrecord
        exact ⟨hhold, none, by simp, load_dropRecord_self⟩
      · simp only [Known.learn, hx, Option.map_some, Option.some.injEq, Prod.mk.injEq] at hrecord
        obtain ⟨rfl, rfl⟩ := hrecord
        rcases hw with ⟨rfl, -⟩ | ⟨rfl, -⟩
        · exact ⟨hhold, none, by simp, load_dropRecord_self⟩
        · exact ⟨hhold, y, by simp, hload⟩
  | release l =>
      have hrecord : (s.releasing l).record = some (name, xs) := hrecord
      have hkeeps : (s.releasing l).record ≠ none := by simp [hrecord]
      obtain ⟨hsame, hkept⟩ := Known.releasing_kept (.inl hkeeps)
      have hold : s.record = some (name, xs) := by rwa [hsame] at hrecord
      obtain ⟨hhold, x, hx, hload⟩ := hs name xs hold
      rw [Known.learn, Known.releasing_holds, load_congr ((exec_frame he).registry rfl)]
      exact ⟨hkept name hhold, x, hx, hload⟩
  | acquire l =>
      obtain ⟨hhold, x, hx, hload⟩ := hs name xs hrecord
      rw [load_congr ((exec_frame he).registry rfl)]
      exact ⟨List.mem_cons_of_mem _ hhold, x, hx, hload⟩
  | _ =>
      rw [Known.learn_record rfl] at hrecord
      rw [Known.learn_holds rfl, load_congr ((exec_frame he).registry rfl)]
      exact hs name xs hrecord

/-- A thread in the lock of a runtime takes no other runtime's. -/
theorem single_step {r : o.Resp}
    (hs : ∀ name name', .runtime name ∈ s.holds → .runtime name' ∈ s.holds → name = name')
    (hp : Permits m c s o) :
    ∀ name name', .runtime name ∈ (s.learn o r).holds → .runtime name' ∈ (s.learn o r).holds →
      name = name' := by
  intro name name' h h'
  cases o with
  | acquire l =>
      have h : .runtime name ∈ l :: s.holds := h
      have h' : .runtime name' ∈ l :: s.holds := h'
      cases l with
      | shared => exact hs name name' (by simpa using h) (by simpa using h')
      | runtime name'' =>
          rcases hp with ⟨-, ⟨-, hnil⟩ | ⟨-, hnil | hown⟩ | ⟨staleOnly, -, hcollector, -⟩⟩
          · simp_all
          · simp_all
          · simp_all
          · simp_all
  | release l =>
      rw [Known.learn, Known.releasing_holds] at h h'
      exact hs name name' (List.mem_of_mem_erase h) (List.mem_of_mem_erase h')
  | _ =>
      rw [Known.learn_holds rfl] at h h'
      exact hs name name' h h'

/-- A response the world gives is one the thread's protocol admits. -/
theorem admits_of_exec {r : o.Resp}
    (hs : ∀ name xs, s.record = some (name, xs) →
      .runtime name ∈ s.holds ∧ ∃ x ∈ xs, w.load name = .ok x)
    (he : exec m reentrant i runtime w o a = some (r, w')) : Admits s o r := by
  unfold Admits
  split
  · rename_i name x
    intro xs hxs
    obtain ⟨-, y, hy, hload⟩ := hs name xs hxs
    obtain ⟨hr, -⟩ := Prod.mk.inj (Option.some.inj he)
    split_ifs at hr
    rw [hload] at hr
    obtain rfl := Except.ok.inj hr
    exact hy
  · obtain ⟨rfl, -⟩ := Prod.mk.inj (Option.some.inj he)
    exact (List.perm_insertionSort _ _).nodup_iff.mpr (w.registry.keys_nodup.filter _)
  · trivial

/-- **A step of one thread keeps coherence**, and what it sees is what it expects. -/
theorem Coherent.step (h : Coherent w vs) (hi : vs[i]? = some (c, s)) {r : o.Resp}
    (hp : Permits m c s o) (he : exec m reentrant i runtime w o a = some (r, w')) :
    Admits s o r ∧ Coherent w' (vs.set i (c, s.learn o r)) := by
  have hs := h.records i (c, s) hi
  refine ⟨admits_of_exec hs he, h.locks.step hi hp he, fun j v hv name xs hrecord => ?_,
    fun v hv => ?_⟩
  swap
  · rcases List.mem_or_eq_of_mem_set hv with hv | rfl
    · exact h.single v hv
    · exact single_step (h.single _ (List.mem_of_getElem? hi)) hp
  rcases getElem?_set_cases hv with ⟨rfl, rfl⟩ | ⟨hj, hv⟩
  · exact record_step hs hp he name xs hrecord
  · obtain ⟨hhold, x, hx, hload⟩ := h.records j v hv name xs hrecord
    refine ⟨hhold, x, hx, ?_⟩
    rw [load_of_entry_ne hp ?_ he]
    · exact hload
    · intro hentry
      exact hj (h.locks.unique hv hi hhold (holds_of_entry hp hentry).1)

theorem Coherent.append (h : Coherent w vs) : Coherent w (vs ++ [(c, ({} : Known))]) := by
  refine ⟨h.locks.of_depth rfl depth_append, fun j v hv name xs hrecord => ?_, fun v hv => ?_⟩
  swap
  · rcases List.mem_append.mp hv with hv | hv
    · exact h.single v hv
    · obtain rfl := List.mem_singleton.mp hv
      simp
  rw [List.getElem?_append] at hv
  split_ifs at hv with hj
  · exact h.records j v hv name xs hrecord
  · have hv := List.mem_of_getElem? hv
    obtain rfl := List.mem_singleton.mp hv
    simp at hrecord

/-- Processes start and end; nothing else happens by itself. -/
theorem environment_eq {e : ProcessEvent} (he : w.environment e = some w') :
    w' = { w with processes := w'.processes, departed := w'.departed } := by
  cases e with
  | started p =>
      unfold World.environment at he
      dsimp only at he
      split_ifs at he
      obtain rfl := Option.some.inj he
      rfl
  | ended pid =>
      obtain rfl := Option.some.inj he
      rfl

theorem Coherent.event (h : Coherent w vs) {e : ProcessEvent} (he : w.environment e = some w') :
    Coherent w' vs := by
  rw [environment_eq he]
  exact ⟨h.locks.of_depth rfl fun _ _ => rfl, h.records, h.single⟩

/-- What a thread knows of an entry is what the registry holds. -/
theorem Coherent.load_of_knows (h : Coherent w vs) (hi : vs[i]? = some (c, s))
    {x : Option RuntimeRecord} (hx : s.Knows name x) : w.load name = .ok x := by
  obtain ⟨-, y, hy, hload⟩ := h.records i (c, s) hi _ _ hx
  obtain rfl : y = x := by simpa using hy
  exact hload

/-- A thread that knows about the entry of a runtime goes on knowing about that entry, until it
gives back the lock. -/
theorem Coherent.record_of_learn (h : Coherent w vs) (hi : vs[i]? = some (c, s)) {r : o.Resp}
    (hp : Permits m c s o) {xs : List (Option RuntimeRecord)} (hrecord : s.record = some (name, xs))
    (ho : ∀ l, o ≠ .release l) : ∃ xs', (s.learn o r).record = some (name, xs') := by
  have hhold := (h.records i (c, s) hi _ _ hrecord).1
  cases o with
  | release l => exact absurd rfl (ho l)
  | loadRegistry name' =>
      cases r with
      | error e => exact ⟨xs, hrecord⟩
      | ok x =>
          simp only [Known.learn]
          split_ifs with hhold'
          · obtain rfl := h.single _ (List.mem_of_getElem? hi) _ _ hhold hhold'
            exact ⟨[x], rfl⟩
          · exact ⟨xs, hrecord⟩
  | writeRegistry x =>
      cases r with
      | ok u => exact ⟨[some x], by simp [Known.learn, hrecord]⟩
      | error e => exact ⟨some x :: xs, by simp [Known.learn, hrecord]⟩
  | deleteRegistry name' =>
      obtain ⟨x, hwork⟩ := hp
      have hx := hwork.knows
      rw [Known.Knows, hrecord] at hx
      obtain ⟨rfl, rfl⟩ := by simpa using hx
      cases r with
      | ok u => exact ⟨[none], rfl⟩
      | error e => exact ⟨[none, x], by simp [Known.learn, hrecord]⟩
  | _ => exact ⟨xs, by rw [Known.learn_record rfl, hrecord]⟩

/-- The daemon's pools. -/
abbrev Pool (m : RuntimeManager) (reentrant : Bool) := (daemon m reentrant).Pool

/-- `n` steps of thread `i`, all with the same answer. -/
def turns (i n : ℕ) (a : Answer := {}) : List (daemon m reentrant).Label :=
  List.replicate n (.step i a)

theorem views_getElem? {p : Pool m reentrant} {t : (daemon m reentrant).Thread}
    (ht : p.threads[i]? = some t) : p.views[i]? = some (t.context, t.known) := by
  rw [Machine.Pool.views, List.getElem?_map, ht]
  rfl

/-- **Coherence is an invariant of the daemon**, whatever its threads and the host do. -/
theorem coherent_preserved (m : RuntimeManager) (reentrant : Bool)
    (ok : Pool m reentrant → (daemon m reentrant).Label → Prop) :
    Machine.Preserves ok Coherent where
  arrive _ _ _ h := h.append
  event _ _ _ _ h he := h.event he
  step _ _ _ _ _ _ _ _ h ht _ hp he := h.step (views_getElem? ht) hp he

/-! ## Conditions on steps -/

/-- A condition on a step: the world and the threads before it, the thread that moves with its
connection and knowledge, its operation, and the environment's part. -/
abbrev StepCondition :=
  World → List (Connection × Known) → ℕ → Connection → Known → Op → Answer → Prop

/-- A condition on the labels of a run. -/
abbrev LabelCondition (m : RuntimeManager) (reentrant : Bool) :=
  Pool m reentrant → (daemon m reentrant).Label → Prop

/-- Runs in which every step of a thread meets the condition. -/
def whenStep (cond : StepCondition) (p : Pool m reentrant) : (daemon m reentrant).Label → Prop
  | .step i a => ∀ t o, p.threads[i]? = some t → t.pending = some o →
      cond p.world p.views i t.context t.known o a
  | _ => True

/-- Whether a step meets the condition, as far as a check can tell. -/
def passesStep (check : World → List (Connection × Known) → ℕ → Connection → Known →
    Op → Answer → Bool)
    (p : Pool m reentrant) : (daemon m reentrant).Label → Bool
  | .step i a =>
      match p.threads[i]? with
      | some t =>
          match t.pending with
          | some o => check p.world p.views i t.context t.known o a
          | none => true
      | none => true
  | _ => true

theorem whenStep_of_passesStep {cond : StepCondition}
    {check : World → List (Connection × Known) → ℕ → Connection → Known → Op → Answer → Bool}
    (hcheck : ∀ w vs i c s o a, check w vs i c s o a = true → cond w vs i c s o a)
    {p : Pool m reentrant} {l : (daemon m reentrant).Label} (h : passesStep check p l = true) :
    whenStep cond p l := by
  cases l with
  | step i a =>
      intro t o ht ho
      refine hcheck _ _ _ _ _ _ _ ?_
      simpa [passesStep, ht, ho] using h
  | _ => trivial

/-- An invariant on top of `I`, by what one step of each kind does to it. -/
theorem preserves_of_steps {cond : StepCondition} {I J : World → List (Connection × Known) → Prop}
    (arrive : ∀ w vs c, I w vs → J w vs → J w (vs ++ [(c, ({} : Known))]))
    (event : ∀ w vs e w', I w vs → J w vs → w.environment e = some w' → J w' vs)
    (step : ∀ (w : World) (vs : List (Connection × Known)) (i : ℕ) (c : Connection) (s : Known)
      (o : Op) (a : Answer) (r : o.Resp) (w' : World), cond w vs i c s o a → I w vs → J w vs →
      vs[i]? = some (c, s) → Permits m c s o → exec m reentrant i c.runtime w o a = some (r, w') →
      I w' (vs.set i (c, s.learn o r)) → J w' (vs.set i (c, s.learn o r))) :
    Machine.PreservesWith (whenStep cond : LabelCondition m reentrant) I J where
  arrive p c _ := arrive p.world p.views c
  event p e w _ hI hJ he := event p.world p.views e w hI hJ he
  step p i a t o r w hok hI hJ ht ho hp he _ :=
    step p.world p.views i t.context t.known o a r w (hok t o ht ho) hI hJ (views_getElem? ht) hp he

/-- The condition that asks for nothing. -/
theorem reaches_whenStep_true {ok : Pool m reentrant → (daemon m reentrant).Label → Prop}
    {p₀ p : Pool m reentrant} (h : Machine.Reaches ok p₀ p) :
    Machine.Reaches (whenStep fun _ _ _ _ _ _ _ => True) p₀ p :=
  h.mono fun _ l _ => by cases l <;> simp [whenStep]

/-! ## Starting the daemon -/

/-- The daemon has just started: it holds no lock, and the registry has nothing but records that
create requests of an earlier daemon wrote. -/
structure World.Started (m : RuntimeManager) (w : World) : Prop where
  unlocked : w.held = fun _ => none
  registered : ∀ name r, w.load name = .ok (some r) →
    isRuntimeName name = true ∧ ∃ c : Connection, c.Wrote m name r

theorem World.Started.coherent (h : w.Started m) : Coherent w [] := by
  refine ⟨fun l j n => ?_, fun j v hv => by simp at hv, fun v hv => by simp at hv⟩
  simp [h.unlocked, depth]
  omega

/-- A host with an empty registry. -/
theorem World.Started.of_empty (hheld : w.held = fun _ => none) (hregistry : w.registry = ∅) :
    w.Started m := by
  refine ⟨hheld, fun name r hr => ?_⟩
  simp [World.load, hregistry] at hr

/-- A record more from an earlier daemon. -/
theorem World.Started.storeRecord (h : w.Started m) {x : RuntimeRecord}
    (hname : isRuntimeName name = true) (hx : c.Wrote m name x) :
    (w.storeRecord name x).Started m := by
  refine ⟨h.unlocked, fun name' r hr => ?_⟩
  by_cases heq : name' = name
  · subst heq
    obtain rfl : x = r := by simpa using hr
    exact ⟨hname, c, hx⟩
  · rw [load_storeRecord_of_ne heq] at hr
    exact h.registered name' r hr

/-- **What holds of every reachable pool**: an invariant that each step keeps, next to the
protocol each thread follows. -/
theorem sound_of_reaches {ok : Pool m reentrant → (daemon m reentrant).Label → Prop}
    {I : World → List (Connection × Known) → Prop} (hI : Machine.Preserves ok I) (h₀ : I w [])
    {p : Pool m reentrant} (hp : Machine.Reaches ok ⟨w, []⟩ p) :
    p.Sound (fun s : Known => s = ({} : Known)) I :=
  hp.sound hI (fresh_sound m reentrant) ⟨h₀, by simp⟩

/-- The connections behind the threads do not change. -/
theorem contexts_set (hi : vs[i]? = some (c, s)) :
    (vs.set i (c, s')).map Prod.fst = vs.map Prod.fst := by
  rw [List.map_set]
  refine List.ext_getElem? fun j => ?_
  by_cases hj : i = j
  · subst hj
    rw [List.getElem?_set_self', List.getElem?_map, hi]
    rfl
  · rw [List.getElem?_set_ne hj]

/-! ## Where records come from -/

/-- Every record was there at the start or comes from a create request of one of the threads. -/
def RecordsWritten (m : RuntimeManager) (w₀ w : World) (vs : List (Connection × Known)) : Prop :=
  ∀ name r, w.load name = .ok (some r) → isRuntimeName name = true ∧
    ∃ c : Connection, c.Wrote m name r
      ∧ (w₀.load name = .ok (some r) ∨ c ∈ vs.map Prod.fst ∧ c.Creates name)

theorem recordsWritten_preserved (m : RuntimeManager) (reentrant : Bool) (w₀ : World)
    (cond : StepCondition) :
    Machine.PreservesWith (whenStep cond : LabelCondition m reentrant) Coherent
      (RecordsWritten m w₀) := by
  refine preserves_of_steps ?_ ?_ ?_
  · intro w vs c _ h name r hr
    obtain ⟨hname, c', hwrote, hfrom⟩ := h name r hr
    refine ⟨hname, c', hwrote, hfrom.imp_right fun ⟨hmem, hcreates⟩ => ⟨?_, hcreates⟩⟩
    rw [List.map_append]
    exact List.mem_append_left _ hmem
  · intro w vs e w' _ h he name r hr
    rw [environment_eq he] at hr
    exact h name r hr
  · intro w vs i c s o a r w' _ _ h hi hp he _ name x hx
    rw [contexts_set hi]
    by_cases hold : w.load name = .ok (some x)
    · exact h name x hold
    · obtain ⟨-, hcreating, hname, hwrote, -⟩ := write_of_new_record hp he hx hold
      exact ⟨hname, c, hwrote,
        .inr ⟨List.mem_map.mpr ⟨_, List.mem_of_getElem? hi, rfl⟩, hcreating.creates⟩⟩

theorem World.Started.recordsWritten (h : w₀.Started m) : RecordsWritten m w₀ w₀ [] := by
  intro name r hr
  obtain ⟨hname, c, hwrote⟩ := h.registered name r hr
  exact ⟨hname, c, hwrote, .inl hr⟩

end FreebsdLaboratory
