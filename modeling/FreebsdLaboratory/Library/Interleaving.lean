import Mathlib.Data.List.Basic
import FreebsdLaboratory.Library.Program

/-!
# Threads that take turns

A `Machine` gives the operations of programs a meaning on a shared world.  A `Pool` is a world and
the threads that run on it; `Pool.next` performs one label: a thread starts, a thread performs
its next operation with an outcome chosen by the environment, or the environment acts on its own.
A thread whose operation has no outcome is blocked.

Every thread carries, next to what is left of its program, the protocol state its responses have
led to.  That record is a function of the thread's own history and has no influence on the run; it
is what invariants over interleavings speak about, since the program itself is opaque.

`Machine.Preserves` is the obligation for an invariant of world and protocol states: one step of
one thread, given that its operation is permitted.  `Reaches.sound` turns it into the invariant of
every reachable pool.  A program that has the world to itself is checked against `Machine.alone`.
-/

namespace Library

variable {Op : Type} {Resp : Op → Type} {ε α : Type}

/-- A thread other than the one that moved is as it was. -/
theorem getElem?_set_cases {vs : List α} {v v' : α} {i j : ℕ} (h : (vs.set i v)[j]? = some v') :
    j = i ∧ v' = v ∨ j ≠ i ∧ vs[j]? = some v' := by
  by_cases hj : j = i
  · subst hj
    rw [List.getElem?_set_self'] at h
    cases hv : vs[j]? with
    | none => simp [hv] at h
    | some u => exact .inl ⟨rfl, by simpa [hv] using h.symm⟩
  · exact .inr ⟨hj, by rwa [List.getElem?_set_ne (Ne.symm hj)] at h⟩

/-- Programs together with the world they act on.  `exec` is given the thread's number and its
context, and returns `none` where the operation has to wait. -/
structure Machine {Op : Type} (Resp : Op → Type) (ε α : Type) where
  World : Type
  Context : Type
  /-- What a thread knows about itself. -/
  Known : Type
  Choice : Type
  Event : Type
  start : Context → Prog Resp ε α
  initial : Known
  permits : Context → Known → Op → Prop
  admits : Context → Known → (o : Op) → Resp o → Prop
  learn : Context → Known → (o : Op) → Resp o → Known
  exec : ℕ → Context → World → (o : Op) → Choice → Option (Resp o × World)
  environment : World → Event → Option World

namespace Machine

variable (M : Machine Resp ε α)

/-- The protocol of a thread with context `c`. -/
def protocol (c : M.Context) : Protocol Resp M.Known :=
  Protocol.ofNext (M.permits c) (M.admits c) (M.learn c)

structure Thread where
  context : M.Context
  rest : Prog Resp ε α
  known : M.Known

structure Pool where
  world : M.World
  threads : List M.Thread

inductive Label where
  | arrive (c : M.Context)
  | step (i : ℕ) (choice : M.Choice)
  | event (e : M.Event)

/-- What an invariant sees of a thread. -/
abbrev View := M.Context × M.Known

variable {M}

def Thread.view (t : M.Thread) : M.View := (t.context, t.known)

/-- A new thread, about to run its program. -/
def Thread.fresh (c : M.Context) : M.Thread := ⟨c, M.start c, M.initial⟩

/-- The operation a thread performs next. -/
def Thread.pending (t : M.Thread) : Option Op :=
  match t.rest with
  | .perform o _ => some o
  | _ => none

/-- One operation of one thread. -/
def Thread.next (t : M.Thread) (i : ℕ) (w : M.World) (choice : M.Choice) :
    Option (M.Thread × M.World) :=
  match t.rest with
  | .perform o k =>
      (M.exec i t.context w o choice).map fun (r, w') =>
        (⟨t.context, k r, M.learn t.context t.known o r⟩, w')
  | _ => none

def Pool.next (p : M.Pool) : M.Label → Option M.Pool
  | .arrive c => some ⟨p.world, p.threads ++ [Thread.fresh c]⟩
  | .step i choice =>
      match p.threads[i]? with
      | some t => (t.next i p.world choice).map fun (t', w) => ⟨w, p.threads.set i t'⟩
      | none => none
  | .event e => (M.environment p.world e).map fun w => ⟨w, p.threads⟩

def Pool.run (p : M.Pool) : List M.Label → Option M.Pool
  | [] => some p
  | l :: ls => (p.next l).bind fun p' => p'.run ls

def Pool.views (p : M.Pool) : List M.View := p.threads.map Thread.view

/-- The pools reachable from `p₀` by labels that meet `ok`. -/
inductive Reaches (ok : M.Pool → M.Label → Prop) (p₀ : M.Pool) : M.Pool → Prop where
  | start : Reaches ok p₀ p₀
  | next {p p' : M.Pool} (l : M.Label) :
      Reaches ok p₀ p → ok p l → p.next l = some p' → Reaches ok p₀ p'

theorem Reaches.mono {ok ok' : M.Pool → M.Label → Prop} {p₀ p : M.Pool}
    (h : Reaches ok p₀ p) (hok : ∀ p l, ok p l → ok' p l) : Reaches ok' p₀ p := by
  induction h with
  | start => exact .start
  | next l _ hl hnext ih => exact .next l ih (hok _ _ hl) hnext

/-- Running a list of labels reaches its last pool, when every label meets the condition in the
pools, here those with `Q`, that the run goes through. -/
theorem reaches_of_run {ok : M.Pool → M.Label → Prop} {p₀ : M.Pool} (Q : M.Pool → Prop) :
    ∀ (ls : List M.Label) {p q : M.Pool}, Reaches ok p₀ p → Q p → p.run ls = some q →
      (∀ p l, l ∈ ls → Reaches ok p₀ p → Q p → ok p l ∧ ∀ p', p.next l = some p' → Q p') →
      Reaches ok p₀ q
  | [], p, q, hp, _, hrun, _ => by
      obtain rfl : p = q := by simpa [Pool.run] using hrun
      exact hp
  | l :: ls, p, q, hp, hQ, hrun, hok => by
      obtain ⟨p', hnext, hrest⟩ := Option.bind_eq_some_iff.mp hrun
      obtain ⟨hl, hkeep⟩ := hok p l (by simp) hp hQ
      exact reaches_of_run Q ls (hp.next l hl hnext) (hkeep p' hnext) hrest
        fun p m hm => hok p m (List.mem_cons_of_mem l hm)

/-- The same where nothing is asked of the labels. -/
theorem reaches_of_free_run {p₀ p : M.Pool} (ls : List M.Label) (hrun : p₀.run ls = some p) :
    Reaches (fun _ _ => True) p₀ p :=
  reaches_of_run (fun _ => True) ls .start trivial hrun fun _ _ _ _ _ =>
    ⟨trivial, fun _ _ => trivial⟩

/-- Runs the labels, each of which has to pass the check. -/
def Pool.checkedRun (check : M.Pool → M.Label → Bool) (p : M.Pool) : List M.Label → Option M.Pool
  | [] => some p
  | l :: ls => if check p l then (p.next l).bind fun p' => p'.checkedRun check ls else none

/-- A checked run reaches its last pool by labels that meet the condition. -/
theorem reaches_of_checkedRun {ok : M.Pool → M.Label → Prop} {check : M.Pool → M.Label → Bool}
    {p₀ : M.Pool} (hcheck : ∀ p l, check p l = true → ok p l) :
    ∀ (ls : List M.Label) {p q : M.Pool}, Reaches ok p₀ p → p.checkedRun check ls = some q →
      Reaches ok p₀ q
  | [], p, q, hp, hrun => by
      obtain rfl : p = q := by simpa [Pool.checkedRun] using hrun
      exact hp
  | l :: ls, p, q, hp, hrun => by
      rw [Pool.checkedRun] at hrun
      split_ifs at hrun with hl
      obtain ⟨p', hnext, hrest⟩ := Option.bind_eq_some_iff.mp hrun
      exact reaches_of_checkedRun hcheck ls (hp.next l (hcheck p l hl) hnext) hrest

/-- **What a step of a thread is.** -/
theorem Pool.next_step {p p' : M.Pool} {i : ℕ} {choice : M.Choice}
    (h : p.next (.step i choice) = some p') :
    ∃ t o k r w, p.threads[i]? = some t ∧ t.rest = .perform o k ∧
      M.exec i t.context p.world o choice = some (r, w) ∧
      p' = ⟨w, p.threads.set i ⟨t.context, k r, M.learn t.context t.known o r⟩⟩ := by
  simp only [Pool.next] at h
  cases ht : p.threads[i]? with
  | none => simp [ht] at h
  | some t =>
      simp only [ht, Option.map_eq_some_iff, Thread.next] at h
      obtain ⟨⟨t', w⟩, hstep, rfl⟩ := h
      cases hrest : t.rest with
      | ret a => simp [hrest] at hstep
      | raise e => simp [hrest] at hstep
      | perform o k =>
          simp only [hrest, Option.map_eq_some_iff] at hstep
          obtain ⟨⟨r, w'⟩, hexec, heq⟩ := hstep
          obtain ⟨rfl, rfl⟩ := Prod.mk.inj heq
          exact ⟨t, o, k, r, w', rfl, hrest, hexec, rfl⟩

/-! ## One program on its own -/

/-- A program that has the world to itself; `ok` says which choices the environment has. -/
def alone (ok : M.World → Op → M.Choice → Prop) (i : ℕ) (c : M.Context) :
    Protocol Resp M.World where
  permits w o := ∃ choice r w', ok w o choice ∧ M.exec i c w o choice = some (r, w')
  moves w o r w' := ∃ choice, ok w o choice ∧ M.exec i c w o choice = some (r, w')

/-- A program that is never blocked comes to an end. -/
theorem alone_ends {ok : M.World → Op → M.Choice → Prop} {i : ℕ} {c : M.Context}
    {β : Type} {Q : β → M.World → Prop} {R : ε → M.World → Prop} {p : Prog Resp ε β} {w : M.World}
    (h : p.Obeys (M.alone ok i c) Q R w) : (∃ b w', Q b w') ∨ ∃ e w', R e w' := by
  refine h.ends ?_
  rintro w o ⟨choice, r, w', hok, hexec⟩
  exact ⟨r, w', choice, hok, hexec⟩

/-! ## Invariants over interleavings -/

/-- Every thread's program obeys its protocol from the state the thread is in, and what a finished
thread knows is `done`. -/
def Thread.Sound (done : M.Known → Prop) (t : M.Thread) : Prop :=
  t.rest.Obeys (M.protocol t.context) (fun _ => done) (fun _ => done) t.known

/-- One step keeps the invariant `I`, for each kind of label.  In `step` the thread's operation is
permitted, and its response has to be one its protocol admits. -/
structure Preserves (ok : M.Pool → M.Label → Prop) (I : M.World → List M.View → Prop) :
    Prop where
  arrive : ∀ (p : M.Pool) (c : M.Context), ok p (.arrive c) → I p.world p.views →
    I p.world (p.views ++ [(c, M.initial)])
  event : ∀ (p : M.Pool) (e : M.Event) (w : M.World), ok p (.event e) → I p.world p.views →
    M.environment p.world e = some w → I w p.views
  step : ∀ (p : M.Pool) (i : ℕ) (choice : M.Choice) (t : M.Thread) (o : Op) (r : Resp o)
    (w : M.World), ok p (.step i choice) → I p.world p.views → p.threads[i]? = some t →
    t.pending = some o → M.permits t.context t.known o →
    M.exec i t.context p.world o choice = some (r, w) →
    M.admits t.context t.known o r ∧
      I w (p.views.set i (t.context, M.learn t.context t.known o r))

/-- One step keeps `J`, given that `I` holds before and after it. -/
structure PreservesWith (ok : M.Pool → M.Label → Prop) (I J : M.World → List M.View → Prop) :
    Prop where
  arrive : ∀ (p : M.Pool) (c : M.Context), ok p (.arrive c) → I p.world p.views →
    J p.world p.views → J p.world (p.views ++ [(c, M.initial)])
  event : ∀ (p : M.Pool) (e : M.Event) (w : M.World), ok p (.event e) → I p.world p.views →
    J p.world p.views → M.environment p.world e = some w → J w p.views
  step : ∀ (p : M.Pool) (i : ℕ) (choice : M.Choice) (t : M.Thread) (o : Op) (r : Resp o)
    (w : M.World), ok p (.step i choice) → I p.world p.views → J p.world p.views →
    p.threads[i]? = some t → t.pending = some o → M.permits t.context t.known o →
    M.exec i t.context p.world o choice = some (r, w) → M.admits t.context t.known o r →
    I w (p.views.set i (t.context, M.learn t.context t.known o r)) →
    J w (p.views.set i (t.context, M.learn t.context t.known o r))

/-- An invariant on top of another. -/
theorem Preserves.and {ok : M.Pool → M.Label → Prop} {I J : M.World → List M.View → Prop}
    (hI : Preserves ok I) (hJ : PreservesWith ok I J) :
    Preserves ok fun w vs => I w vs ∧ J w vs where
  arrive p c hok h := ⟨hI.arrive p c hok h.1, hJ.arrive p c hok h.1 h.2⟩
  event p e w hok h he := ⟨hI.event p e w hok h.1 he, hJ.event p e w hok h.1 h.2 he⟩
  step p i choice t o r w hok h ht ho hperm hexec := by
    obtain ⟨hadm, hnew⟩ := hI.step p i choice t o r w hok h.1 ht ho hperm hexec
    exact ⟨hadm, hnew, hJ.step p i choice t o r w hok h.1 h.2 ht ho hperm hexec hadm hnew⟩

/-- An invariant on top of `I` is one on top of anything stronger. -/
theorem PreservesWith.weaken {ok : M.Pool → M.Label → Prop}
    {I I' J : M.World → List M.View → Prop} (h : PreservesWith ok I J)
    (hI : ∀ w vs, I' w vs → I w vs) : PreservesWith ok I' J where
  arrive p c hok h' := h.arrive p c hok (hI _ _ h')
  event p e w hok h' := h.event p e w hok (hI _ _ h')
  step p i choice t o r w hok h' hJ ht ho hperm hexec hadm hnew :=
    h.step p i choice t o r w hok (hI _ _ h') hJ ht ho hperm hexec hadm (hI _ _ hnew)

/-- A stricter condition on the labels keeps an invariant all the more. -/
theorem Preserves.mono {ok ok' : M.Pool → M.Label → Prop} {I : M.World → List M.View → Prop}
    (hI : Preserves ok' I) (hok : ∀ p l, ok p l → ok' p l) : Preserves ok I where
  arrive p c h := hI.arrive p c (hok p _ h)
  event p e w h := hI.event p e w (hok p _ h)
  step p i choice t o r w h := hI.step p i choice t o r w (hok p _ h)

structure Pool.Sound (done : M.Known → Prop) (I : M.World → List M.View → Prop) (p : M.Pool) :
    Prop where
  holds : I p.world p.views
  obeys : ∀ t ∈ p.threads, t.Sound done

/-- A sound thread's next operation is permitted. -/
theorem Pool.Sound.permits {done : M.Known → Prop} {I : M.World → List M.View → Prop} {p : M.Pool}
    (hp : p.Sound done I) {i : ℕ} {t : M.Thread} {o : Op} (ht : p.threads[i]? = some t)
    (ho : t.pending = some o) : M.permits t.context t.known o := by
  have hsound := hp.obeys t (List.mem_of_getElem? ht)
  cases hrest : t.rest with
  | ret a => simp [Thread.pending, hrest] at ho
  | raise e => simp [Thread.pending, hrest] at ho
  | perform o' k =>
      obtain rfl : o' = o := by simpa [Thread.pending, hrest] using ho
      rw [Thread.Sound, hrest] at hsound
      exact hsound.1

/-- **The step lemma**: one label keeps a pool sound. -/
theorem Pool.Sound.next {done : M.Known → Prop} {ok : M.Pool → M.Label → Prop}
    {I : M.World → List M.View → Prop} (hI : Preserves ok I)
    (hstart : ∀ c, (Thread.fresh (M := M) c).Sound done) {p p' : M.Pool} {l : M.Label}
    (hp : p.Sound done I) (hok : ok p l) (h : p.next l = some p') : p'.Sound done I := by
  cases l with
  | arrive c =>
      obtain rfl := Option.some.inj h
      refine ⟨?_, fun t ht => ?_⟩
      · simpa [Pool.views, Thread.view, Thread.fresh] using hI.arrive p c hok hp.holds
      · rcases List.mem_append.mp ht with ht | ht
        · exact hp.obeys t ht
        · rw [List.mem_singleton.mp ht]; exact hstart c
  | event e =>
      obtain ⟨w, hw, rfl⟩ := Option.map_eq_some_iff.mp h
      exact ⟨hI.event p e w hok hp.holds hw, hp.obeys⟩
  | step i choice =>
      obtain ⟨t, o, k, r, w, ht, hrest, hexec, rfl⟩ := Pool.next_step h
      have hpend : t.pending = some o := by simp [Thread.pending, hrest]
      obtain ⟨hadm, hnew⟩ :=
        hI.step p i choice t o r w hok hp.holds ht hpend (hp.permits ht hpend) hexec
      refine ⟨?_, fun t' ht' => ?_⟩
      · simpa [Pool.views, List.map_set, Thread.view] using hnew
      · rcases List.mem_or_eq_of_mem_set ht' with ht' | rfl
        · exact hp.obeys t' ht'
        · have hsound := hp.obeys t (List.mem_of_getElem? ht)
          rw [Thread.Sound, hrest] at hsound
          exact hsound.2 r _ ⟨hadm, rfl⟩

/-- **The run lemma**: every reachable pool is sound. -/
theorem Reaches.sound {done : M.Known → Prop} {ok : M.Pool → M.Label → Prop}
    {I : M.World → List M.View → Prop} (hI : Preserves ok I)
    (hstart : ∀ c, (Thread.fresh (M := M) c).Sound done) {p₀ p : M.Pool}
    (h₀ : p₀.Sound done I) (h : Reaches ok p₀ p) : p.Sound done I := by
  induction h with
  | start => exact h₀
  | next l _ hl hnext ih => exact ih.next hI hstart hl hnext

end Machine

end Library
