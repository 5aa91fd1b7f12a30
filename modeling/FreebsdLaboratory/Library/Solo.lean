import Mathlib.Tactic.SplitIfs
import FreebsdLaboratory.Library.Program

/-!
# A program and its history

A program that has a world to itself, next to the list of what it has done: `solo exec ok` runs it
on the world by `exec`, with the choices of the environment that `ok` admits, and writes down every
operation with the world before it.  A program that is blocked goes nowhere.

The history is a list with the newest step first.  A statement about the order of operations, or
about the last one of a kind, is a statement about this list.
-/

namespace Library

variable {Op : Type} {Resp : Op → Type} {ε α World Choice : Type}

/-- An operation that was performed. -/
structure Step {Op : Type} (Resp : Op → Type) (World Choice : Type) where
  before : World
  op : Op
  choice : Choice
  resp : Resp op

/-- A world, and the steps that led to it. -/
structure Solo {Op : Type} (Resp : Op → Type) (World Choice : Type) where
  world : World
  past : List (Step Resp World Choice)

/-- The protocol of a program on its own. -/
def solo (exec : World → (o : Op) → Choice → Option (Resp o × World)) (ok : Op → Choice → Bool) :
    Protocol Resp (Solo Resp World Choice) where
  permits _ _ := True
  moves s o r s' := ∃ choice w, ok o choice = true ∧ exec s.world o choice = some (r, w) ∧
    s' = ⟨w, ⟨s.world, o, choice, r⟩ :: s.past⟩

/-- In a history, every `P` has a `Q` before it. -/
def Preceded {α : Type} (P Q : α → Prop) (past : List α) : Prop :=
  ∀ newer x older, past = newer ++ x :: older → P x → ∃ y ∈ older, Q y

section Preceded

variable {P Q : α → Prop} {x : α} {past : List α}

@[simp] theorem preceded_nil : Preceded P Q ([] : List α) := by
  intro newer x older heq
  simp at heq

theorem preceded_cons :
    Preceded P Q (x :: past) ↔ (P x → ∃ y ∈ past, Q y) ∧ Preceded P Q past := by
  constructor
  · intro h
    exact ⟨h [] x past rfl, fun newer y older heq => h (x :: newer) y older (by rw [heq]; rfl)⟩
  · rintro ⟨hx, hpast⟩ newer y older heq
    cases newer with
    | nil =>
        obtain ⟨rfl, rfl⟩ := List.cons.inj heq
        exact hx
    | cons z newer => exact hpast newer y older (List.cons.inj heq).2

/-- Where there is no `P`, none is without its `Q`. -/
theorem preceded_of_none (h : ∀ x ∈ past, ¬ P x) : Preceded P Q past := by
  rintro newer x older rfl hx
  exact absurd hx (h x (by simp))

end Preceded

namespace Solo

variable {exec : World → (o : Op) → Choice → Option (Resp o × World)} {ok : Op → Choice → Bool}
variable {s : Solo Resp World Choice}

@[simp] theorem obeys_op {o : Op} {Q : Resp o → Solo Resp World Choice → Prop}
    {R : ε → Solo Resp World Choice → Prop} : (Prog.op Resp ε o).Obeys (solo exec ok) Q R s ↔
      ∀ choice r w, ok o choice = true → exec s.world o choice = some (r, w) →
        Q r ⟨w, ⟨s.world, o, choice, r⟩ :: s.past⟩ := by
  rw [Prog.obeys_op]
  constructor
  · exact fun h choice r w hok hexec => h.2 r _ ⟨choice, w, hok, hexec, rfl⟩
  · rintro h
    refine ⟨trivial, ?_⟩
    rintro r s' ⟨choice, w, hok, hexec, rfl⟩
    exact h choice r w hok hexec

/-- Nothing is asked of a program on its own. -/
theorem obeys_trivial (p : Prog Resp ε α) :
    p.Obeys (solo exec ok) (fun _ _ => True) (fun _ _ => True) s := by
  induction p generalizing s with
  | ret a => trivial
  | raise e => trivial
  | perform o k ih => exact ⟨trivial, fun r s' _ => ih r⟩

/-- A piece that may do anything, in front of one that is right wherever it starts. -/
theorem obeys_after {β : Type} {Q : β → Solo Resp World Choice → Prop}
    {R : ε → Solo Resp World Choice → Prop} {p : Prog Resp ε α} {f : α → Prog Resp ε β}
    (hR : ∀ e s, R e s) (h : ∀ a s, (f a).Obeys (solo exec ok) Q R s) :
    (p >>= f).Obeys (solo exec ok) Q R s :=
  Prog.obeys_bind.mpr ((obeys_trivial p).mono (fun a s _ => h a s) fun e s _ => hR e s)

/-- The program and its world, when its operations end as chosen. -/
def follow (exec : World → (o : Op) → Choice → Option (Resp o × World)) (ok : Op → Choice → Bool) :
    List Choice → Prog Resp ε α → Solo Resp World Choice →
      Option (Prog Resp ε α × Solo Resp World Choice)
  | [], p, s => some (p, s)
  | choice :: choices, .perform o k, s =>
      if ok o choice then
        match exec s.world o choice with
        | some (r, w) => follow exec ok choices (k r) ⟨w, ⟨s.world, o, choice, r⟩ :: s.past⟩
        | none => none
      else none
  | _ :: _, _, _ => none

/-- Where operations end as chosen, the program is checked from there on, by any protocol that lets
them end so. -/
theorem follow_obeys {T : Protocol Resp (Solo Resp World Choice)}
    (hT : T.moves = (solo exec ok).moves)
    {Q : α → Solo Resp World Choice → Prop} {R : ε → Solo Resp World Choice → Prop}
    {choices : List Choice} {p p' : Prog Resp ε α} {s' : Solo Resp World Choice}
    (h : p.Obeys T Q R s)
    (hfollow : follow exec ok choices p s = some (p', s')) : p'.Obeys T Q R s' := by
  induction choices generalizing p s with
  | nil =>
      obtain ⟨rfl, rfl⟩ := Prod.mk.inj (Option.some.inj hfollow)
      exact h
  | cons choice choices ih =>
      cases p with
      | ret a => cases hfollow
      | raise e => cases hfollow
      | perform o k =>
          simp only [follow] at hfollow
          split_ifs at hfollow with hok
          cases hexec : exec s.world o choice with
          | none =>
              rw [hexec] at hfollow
              cases hfollow
          | some next =>
              obtain ⟨r, w⟩ := next
              rw [hexec] at hfollow
              refine ih (h.2 r _ ?_) hfollow
              rw [hT]
              exact ⟨choice, w, hok, hexec, rfl⟩

theorem obeys_of_follow {Q : α → Solo Resp World Choice → Prop}
    {R : ε → Solo Resp World Choice → Prop} {choices : List Choice} {p p' : Prog Resp ε α}
    {s' : Solo Resp World Choice} (h : p.Obeys (solo exec ok) Q R s)
    (hfollow : follow exec ok choices p s = some (p', s')) : p'.Obeys (solo exec ok) Q R s' :=
  follow_obeys rfl h hfollow

end Solo

end Library
